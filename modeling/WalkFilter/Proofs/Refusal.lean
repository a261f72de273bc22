/-
One more refusal in a tag filter.

A blacklist token that is added to a piece of the tag filter takes part in
every decision that the piece is about, and beats whatever else the piece says.
The walk cuts branches off at the refused vertices, and what is left is what
one would get by looking for those vertices on the results afterwards:

* **`ofPiece_refusal`** — the added token stands after those of the piece, and
  is satisfied as its text is;
* **`readPiece_refusal`** — the piece refuses what satisfies the token, and
  says of anything else what it said before;
* **`search_refusing`** — the walk with the refusal finds the results of the
  walk without it that come to no refused vertex.
-/
import WalkFilter.Proofs.Reading

namespace WalkFilter

theorem Decision.and_excludeAndPrune (d : Decision) :
    d.and .excludeAndPrune = .excludeAndPrune := by
  simp [Decision.and, Decision.excludeAndPrune]

section Modify

variable {α : Type} {f : α → α} {l : List α} {i : ℕ}

theorem forall_mem_modify {p : α → Prop} (hp : ∀ a ∈ l, p a) (hf : ∀ a, p a → p (f a)) :
    ∀ a ∈ l.modify i f, p a := by
  intro a ha
  obtain ⟨j, hj⟩ := List.getElem?_of_mem ha
  rw [List.getElem?_modify] at hj
  obtain ⟨b, hb, rfl⟩ := Option.map_eq_some_iff.mp hj
  have hpb : p b := hp b (List.mem_of_getElem? hb)
  show p (if i = j then f b else b)
  split_ifs
  · exact hf b hpb
  · exact hpb

/-- A test that the change of an element leaves as it was comes out as before. -/
theorem any_modify {p : α → Bool} (hf : ∀ a, p (f a) = p a) : (l.modify i f).any p = l.any p := by
  induction l generalizing i with
  | nil => simp
  | cons a rest ih =>
    rcases i with _ | i
    · rw [List.modify_zero_cons, List.any_cons, List.any_cons, hf]
    · rw [List.modify_succ_cons, List.any_cons, List.any_cons, ih]

end Modify

/-! ### A piece with one more token -/

namespace Token

/-- Satisfaction looks at the trimmed text only. -/
theorem satisfiedBy_of_trim_eq {t u : Token} (h : Text.trim t.body = Text.trim u.body)
    (v : Vertex) : t.satisfiedBy v = u.satisfiedBy v := by
  have hcolon : ¬ Chars.isBlank ':' := by decide
  have hmembers : t.members = u.members := by
    rw [members, members, ← Text.map_trim_split_trim hcolon, h, Text.map_trim_split_trim hcolon]
  rw [satisfiedBy, satisfiedBy, isUniversal, isUniversal, h, hmembers]

/-- The token of an alternative that begins with the mark of a refusal. -/
theorem read?_refusal (body : String) :
    ∃ t : Token, read? ("-" ++ body) = some t ∧ t.role = .blacklist ∧
      ∀ v, t.satisfiedBy v = (Token.mk .blacklist body).satisfiedBy v := by
  have hdash : ¬ Chars.isBlank '-' := by decide
  have htrim : (Text.trim ("-" ++ body)).toList
      = '-' :: body.toList.rdropWhile Chars.isBlank := by
    rw [Text.trim, String.toList_ofList, String.toList_append]
    exact Chars.trim_append_cons hdash [] body.toList
  refine ⟨⟨.blacklist, .ofList (body.toList.rdropWhile Chars.isBlank)⟩, ?_, rfl, ?_⟩
  · rw [read?, htrim]
    rfl
  · refine satisfiedBy_of_trim_eq ?_
    show Text.trim (String.ofList (body.toList.rdropWhile Chars.isBlank)) = Text.trim body
    rw [Text.trim, Text.trim, String.toList_ofList, Chars.trim_rdropWhile]

/-- **The added token stands after those of the piece.** -/
theorem ofPiece_refusal {body : String} (hbar : '|' ∉ body.toList) (piece : String) :
    ∃ t : Token, ofPiece (piece ++ "|-" ++ body) = ofPiece piece ++ [t] ∧ t.role = .blacklist ∧
      ∀ v, t.satisfiedBy v = (Token.mk .blacklist body).satisfiedBy v := by
  obtain ⟨t, hread, hrole, hsatisfied⟩ := read?_refusal body
  have hdash : '|' ∉ ("-" ++ body).toList := by
    rw [String.toList_append]
    simpa using hbar
  have hsplit : Text.split '|' (piece ++ "|-" ++ body) = Text.split '|' piece ++ ["-" ++ body] := by
    have htext : (piece ++ "|-" ++ body).toList = piece.toList ++ '|' :: ("-" ++ body).toList := by
      simp
    rw [Text.split, htext, Chars.split_append_cons, Chars.split_of_not_mem hdash, List.map_append,
      List.map_singleton, String.ofList_toList]
    rfl
  refine ⟨t, ?_, hrole, hsatisfied⟩
  rw [ofPiece, hsplit, List.filterMap_append, List.filterMap_cons, hread]
  rfl

end Token

/-! ### The request with the refusal -/

namespace Request

/-- The piece of the tag filter with a further alternative: vertices that satisfy `body` are
refused. -/
def refusing (q : Request) (i : ℕ) (body : String) : Request :=
  { q with
    tagFilter := some (Text.join ','
      ((Text.split ',' (q.tagFilter.getD "")).modify i (· ++ "|-" ++ body))) }

/-- Is the `i`-th piece of the tag filter about the end of a path of this length?  No piece is
about the start, unless it is filtered and the pieces begin on it. -/
def governs (q : Request) (i depth : ℕ) : Prop :=
  (1 ≤ depth ∨ q.filterStart = true ∧ q.beginAtStart = true) ∧
    i = (if q.beginAtStart then depth else depth - 1)
      % (Text.split ',' (q.tagFilter.getD "")).length

instance (q : Request) (i depth : ℕ) : Decidable (q.governs i depth) :=
  inferInstanceAs (Decidable (_ ∧ _))

/-- There is a vertex on the path that the `i`-th piece is about and that satisfies `body`. -/
def Meets (q : Request) (i : ℕ) (body : String) (p : Path) : Prop :=
  ∃ x ∈ p.vertices.zipIdx, q.governs i x.2 ∧ (Token.mk .blacklist body).satisfiedBy x.1

instance (q : Request) (i : ℕ) (body : String) (p : Path) : Decidable (q.Meets i body p) :=
  inferInstanceAs (Decidable (∃ x ∈ p.vertices.zipIdx, _ ∧ _))

/-- What the refusal by itself says of a path of this length that ends on `v`. -/
def refusal (q : Request) (i : ℕ) (body : String) (depth : ℕ) (v : Vertex) : Decision :=
  if q.governs i depth ∧ (Token.mk .blacklist body).satisfiedBy v then .excludeAndPrune
  else .includeAndContinue

variable {q : Request} {i : ℕ} {body : String}

theorem tagPieces_of_sequence?_eq_none (hseq : q.sequence? = none) :
    q.tagPieces = Text.split ',' (q.tagFilter.getD "") := by
  have hblank : Text.isBlank (q.sequence.getD "") := by
    by_contra hne
    rw [sequence?_eq, if_neg hne] at hseq
    exact absurd hseq (by simp)
  rw [tagPieces, if_pos hblank]
  cases q.tagFilter <;> rfl

theorem tagPieces_refusing (hseq : q.sequence? = none) (hcomma : ',' ∉ body.toList) :
    (q.refusing i body).tagPieces = q.tagPieces.modify i (· ++ "|-" ++ body) := by
  have hseq' : (q.refusing i body).sequence? = none := hseq
  have hpieces : ∀ piece ∈ (Text.split ',' (q.tagFilter.getD "")).modify i (· ++ "|-" ++ body),
      ',' ∉ piece.toList := by
    refine forall_mem_modify (fun piece => Text.not_mem_of_mem_split) fun piece hpiece => ?_
    simp [hpiece, hcomma]
  have hne : (Text.split ',' (q.tagFilter.getD "")).modify i (· ++ "|-" ++ body) ≠ [] := by
    rw [← List.length_pos_iff, List.length_modify, List.length_pos_iff]
    exact Text.split_ne_nil _ _
  rw [tagPieces_of_sequence?_eq_none hseq', tagPieces_of_sequence?_eq_none hseq]
  exact Text.split_join hne hpieces

theorem endsOnly_refusing (hseq : q.sequence? = none) (hcomma : ',' ∉ body.toList)
    (hbar : '|' ∉ body.toList) : (q.refusing i body).endsOnly = q.endsOnly := by
  rw [endsOnly, endsOnly, tagPieces_refusing hseq hcomma]
  refine any_modify fun piece => ?_
  -- A token that refuses names no ends.
  obtain ⟨t, htokens, hrole, -⟩ := Token.ofPiece_refusal hbar piece
  rw [htokens, List.any_append]
  simp [hrole]

/-- The changed piece refuses what satisfies the token, and says of anything else what it said
before. -/
theorem readPiece_refusal (hseq : q.sequence? = none) (hcomma : ',' ∉ body.toList)
    (hbar : '|' ∉ body.toList) (piece : String) (depth : ℕ) (v : Vertex) :
    (q.refusing i body).readPiece (piece ++ "|-" ++ body) depth v
      = if (Token.mk .blacklist body).satisfiedBy v then .excludeAndPrune
        else q.readPiece piece depth v := by
  obtain ⟨t, htokens, hrole, hsatisfied⟩ := Token.ofPiece_refusal hbar piece
  have hmin : (q.refusing i body).minLevel = q.minLevel := rfl
  rw [readPiece, readPiece, endsOnly_refusing hseq hcomma hbar, hmin, htokens]
  simp only [List.any_append, List.any_cons, List.any_nil, Bool.or_false, hrole, hsatisfied,
    decide_true, Bool.true_and, reduceCtorEq, decide_false, Bool.false_and]
  cases (Token.mk .blacklist body).satisfiedBy v with
  | true => simp
  | false => simp

/-- The other pieces say what they said before. -/
theorem readPiece_refusing (hseq : q.sequence? = none) (hcomma : ',' ∉ body.toList)
    (hbar : '|' ∉ body.toList) (piece : String) (depth : ℕ) (v : Vertex) :
    (q.refusing i body).readPiece piece depth v = q.readPiece piece depth v := by
  rw [readPiece, readPiece, endsOnly_refusing hseq hcomma hbar]
  rfl

theorem readPiece_getD_refusing (hseq : q.sequence? = none) (hcomma : ',' ∉ body.toList)
    (hbar : '|' ∉ body.toList) {j : ℕ} (hj : j < q.tagPieces.length) (depth : ℕ) (v : Vertex) :
    (q.refusing i body).readPiece ((q.refusing i body).tagPieces.getD j "") depth v
      = if i = j ∧ (Token.mk .blacklist body).satisfiedBy v then .excludeAndPrune
        else q.readPiece (q.tagPieces.getD j "") depth v := by
  have hj' : j < (q.tagPieces.modify i (· ++ "|-" ++ body)).length := by
    rwa [List.length_modify]
  rw [tagPieces_refusing hseq hcomma, List.getD_eq_getElem _ _ hj', List.getD_eq_getElem _ _ hj,
    List.getElem_modify]
  by_cases hij : i = j
  · rw [if_pos hij, readPiece_refusal hseq hcomma hbar]
    simp only [hij, true_and]
  · rw [if_neg hij, readPiece_refusing hseq hcomma hbar, if_neg fun h => hij h.1]

/-- The position of the piece about the end of a path of this length. -/
def tagPosition (q : Request) (depth : ℕ) : ℕ :=
  (if q.beginAtStart then depth else depth - 1) % q.tagPieces.length

/-- No piece is about the end of a path of this length. -/
def exemptsStart (q : Request) (depth : ℕ) : Bool :=
  depth = 0 && !(q.filterStart && q.beginAtStart)

theorem readTags_of_exempt {depth : ℕ} (h : q.exemptsStart depth) (v : Vertex) :
    q.readTags depth v = if q.endsOnly then .excludeAndContinue else .includeAndContinue :=
  if_pos h

theorem readTags_of_not_exempt {depth : ℕ} (h : ¬ q.exemptsStart depth) (v : Vertex) :
    q.readTags depth v = q.readPiece (q.tagPieces.getD (q.tagPosition depth) "") depth v :=
  if_neg h

theorem governs_iff (hseq : q.sequence? = none) (depth : ℕ) :
    q.governs i depth ↔ ¬ q.exemptsStart depth ∧ i = q.tagPosition depth := by
  rw [governs, tagPosition, tagPieces_of_sequence?_eq_none hseq, exemptsStart]
  refine and_congr_left' ?_
  rcases depth with _ | d
  · cases q.filterStart <;> cases q.beginAtStart <;> simp
  · simp

/-- **The pieces say what they said before, and what the refusal says**, both together. -/
theorem readTags_refusing (hseq : q.sequence? = none) (hcomma : ',' ∉ body.toList)
    (hbar : '|' ∉ body.toList) (depth : ℕ) (v : Vertex) :
    (q.refusing i body).readTags depth v
      = (q.readTags depth v).and (q.refusal i body depth v) := by
  have hexempts : (q.refusing i body).exemptsStart depth = q.exemptsStart depth := rfl
  by_cases hexempt : q.exemptsStart depth
  · -- No piece is about an exempt start.
    have hrefusal : q.refusal i body depth v = .includeAndContinue :=
      if_neg fun h => ((governs_iff hseq depth).mp h.1).1 hexempt
    rw [readTags_of_exempt hexempt, readTags_of_exempt (hexempts ▸ hexempt), hrefusal,
      endsOnly_refusing hseq hcomma hbar, Decision.and_includeAndContinue]
  · have hposition : (q.refusing i body).tagPosition depth = q.tagPosition depth := by
      rw [tagPosition, tagPosition, tagPieces_refusing hseq hcomma, List.length_modify]
      rfl
    have hlt : q.tagPosition depth < q.tagPieces.length :=
      Nat.mod_lt _ (List.length_pos_of_ne_nil q.tagPieces_ne_nil)
    rw [readTags_of_not_exempt hexempt, readTags_of_not_exempt (hexempts ▸ hexempt), hposition,
      readPiece_getD_refusing hseq hcomma hbar hlt]
    have hgoverns : q.governs i depth ↔ i = q.tagPosition depth := by
      rw [governs_iff hseq, and_iff_right hexempt]
    by_cases hmeets : q.governs i depth ∧ (Token.mk .blacklist body).satisfiedBy v
    · have hpiece : i = q.tagPosition depth ∧ (Token.mk .blacklist body).satisfiedBy v :=
        ⟨hgoverns.mp hmeets.1, hmeets.2⟩
      rw [refusal, if_pos hmeets, if_pos hpiece, Decision.and_excludeAndPrune]
    · have hpiece : ¬ (i = q.tagPosition depth ∧ (Token.mk .blacklist body).satisfiedBy v) :=
        fun h => hmeets ⟨hgoverns.mpr h.1, h.2⟩
      rw [refusal, if_neg hmeets, if_neg hpiece, Decision.and_includeAndContinue]

/-! ### The walk with the refusal -/

theorem conjoins_refusal (hseq : q.sequence? = none) (hcomma : ',' ∉ body.toList)
    (hbar : '|' ∉ body.toList) :
    (q.refusing i body).plan.Conjoins q.plan (q.refusal i body) where
  decide depth v := by
    have hlists : (q.refusing i body).decideLists depth v.id = q.decideLists depth v.id := rfl
    rw [decide_plan, decide_plan, decide_tagSequence, decide_tagSequence, hlists,
      readTags_refusing hseq hcomma hbar, Decision.and_assoc, Decision.and_assoc,
      Decision.and_comm (q.refusal i body depth v)]
  itinerary := rfl
  bounds := rfl

/-- **The refusal lets a path pass just if the path comes to no refused vertex.** -/
theorem passes_refusal_iff (p : Path) :
    p.passes (q.refusal i body) = true ↔ ¬ q.Meets i body p := by
  have hincludes : ∀ r : Path, (q.refusal i body r.length r.last).includes = true ↔
      ¬ (q.governs i r.length ∧ (Token.mk .blacklist body).satisfiedBy r.last) := by
    intro r
    unfold refusal
    split_ifs with h
    · simp [h, Decision.excludeAndPrune]
    · simp [h, Decision.includeAndContinue]
  have hcontinues : ∀ r : Path, (q.refusal i body r.length r.last).continues
      = (q.refusal i body r.length r.last).includes := by
    intro r
    unfold refusal
    split_ifs
    · rfl
    · rfl
  rw [Path.passes, Path.reachedBy, Bool.and_eq_true, List.all_eq_true, hincludes, Meets,
    Path.zipIdx_vertices]
  simp only [hcontinues, hincludes]
  constructor
  · rintro ⟨hbefore, hlast⟩ ⟨x, hx, hmeets⟩
    obtain ⟨r, hr, rfl⟩ := List.mem_map.mp hx
    rcases List.mem_append.mp hr with hr | hr
    · exact hbefore r hr hmeets
    · rw [List.mem_singleton.mp hr] at hmeets
      exact hlast hmeets
  · intro hfree
    have hnone : ∀ r ∈ p.properPrefixes ++ [p],
        ¬ (q.governs i r.length ∧ (Token.mk .blacklist body).satisfiedBy r.last) :=
      fun r hr hmeets => hfree ⟨_, List.mem_map.mpr ⟨r, hr, rfl⟩, hmeets⟩
    exact ⟨fun r hr => hnone r (List.mem_append_left _ hr), hnone p (by simp)⟩

end Request

/-- **A refusal filters the results of the walk without it**: the walk with the refusal finds those
results that come to no refused vertex, in the same order and as often. -/
theorem search_refusing {changes : List Graph.Change} {start : VertexId} {v : Vertex}
    (hv : (Graph.build changes).vertex? start = some v) {q : Request} {plan : Plan}
    (hq : q.compile = .ok plan) (hu : q.uniqueness ≠ .nodeGlobal) (hlimit : q.limit = none)
    (hseq : q.sequence? = none) (i : ℕ) {body : String} (hcomma : ',' ∉ body.toList)
    (hbar : '|' ∉ body.toList) :
    ∃ plan' results, (q.refusing i body).compile = .ok plan' ∧
      search (Graph.build changes) plan start = .ok results ∧
      search (Graph.build changes) plan' start
        = .ok (results.filter fun p => ¬ q.Meets i body p) := by
  have honce : plan.visitsOnce = false := Search.visitsOnce_eq_false hq hu
  obtain ⟨hvalid, rfl⟩ := Request.compile_eq_ok_iff.mp hq
  have hvalid' : (q.refusing i body).validate = .ok () := hvalid
  obtain ⟨results, hresults, hfilter⟩ := search_conjoin (Graph.closed_build changes) hv
    (Request.conjoins_refusal hseq hcomma hbar) honce hlimit
  refine ⟨_, results, Request.compile_eq_ok_iff.mpr ⟨hvalid', rfl⟩, hresults, ?_⟩
  rw [hfilter]
  refine congrArg _ (List.filter_congr fun p _ => ?_)
  rw [Bool.eq_iff_iff, Request.passes_refusal_iff, decide_eq_true_eq]

/-- A refused vertex is no result, also where the piece names it as a terminator. -/
theorem search_refusing_terminator :
    search (Graph.build [.vertex [], .vertex ["Film"], .vertex ["Draft", "Film"],
        .edge ⟨0⟩ ⟨1⟩ "A", .edge ⟨0⟩ ⟨2⟩ "A"])
      (Request.plan { tagFilter := some "Person,/Film|*|- Film : Draft " }) ⟨0⟩
      = .ok [.hop (.start ⟨⟨0⟩, .empty⟩) ⟨⟨0⟩, "A", ⟨0⟩, ⟨1⟩⟩ ⟨⟨1⟩, .ofList ["Film"]⟩] := by
  obtain ⟨plan', results, hplan', hresults, hfilter⟩ := @search_refusing
    [.vertex [], .vertex ["Film"], .vertex ["Draft", "Film"], .edge ⟨0⟩ ⟨1⟩ "A",
      .edge ⟨0⟩ ⟨2⟩ "A"] ⟨0⟩ ⟨⟨0⟩, .empty⟩ (by decide)
    { tagFilter := some "Person,/Film|*" } _ rfl (by decide) rfl rfl 1 " Film : Draft "
    (by decide) (by decide)
  have hrefusing : Request.refusing { tagFilter := some "Person,/Film|*" } 1 " Film : Draft "
      = { tagFilter := some "Person,/Film|*|- Film : Draft " } := by decide
  rw [hrefusing] at hplan'
  cases hplan'
  rw [search_eq (Graph.closed_build _) _ (v := ⟨⟨0⟩, .empty⟩) (by decide)] at hresults
  cases hresults
  rw [hfilter]
  exact congrArg _ (by decide)

end WalkFilter
