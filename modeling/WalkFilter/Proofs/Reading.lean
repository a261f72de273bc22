/-
What the text of a request says of a path.

`Request.read` decides about a path from the text of the request alone: it
looks at the tokens of the one piece that is about the end of the path, and
at the lists of vertices.  It builds no patterns, no rules and no sequence.

* **`accepts_addTokens`**, **`isNone_addTokens`** — what a rule that collects
  tokens knows of them;
* **`tagSequence_eq`** — the rules of a request are those of its pieces;
* **`decidePath_eq_read`** — a compiled request decides as its text reads.
-/
import WalkFilter.Proofs.Cut
import WalkFilter.Proofs.ListFilter

namespace WalkFilter

/-- A token of a tag filter: what it says of the vertices that satisfy it, and its text without
the mark. -/
structure Token where
  role : Role
  body : String

namespace Token

/-- The token of an alternative that is not blank.  A first character that is no mark belongs to
the text. -/
def read? (alternative : String) : Option Token :=
  match (Text.trim alternative).toList with
  | [] => none
  | '-' :: body => some ⟨.blacklist, .ofList body⟩
  | '/' :: body => some ⟨.terminator, .ofList body⟩
  | '>' :: body => some ⟨.endVertex, .ofList body⟩
  | '+' :: body => some ⟨.whitelist, .ofList body⟩
  | c :: body => some ⟨.whitelist, .ofList (c :: body)⟩

/-- A lone '*' is satisfied by every vertex. -/
def isUniversal (t : Token) : Bool := Text.trim t.body = "*"

/-- The tags between the colons. -/
def members (t : Token) : List String :=
  ((Text.split ':' t.body).map Text.trim).filter (· ≠ "")

/-- Is there anything that a vertex can satisfy? -/
def asks (t : Token) : Bool := t.isUniversal || t.members ≠ []

/-- Does the vertex carry what is asked for? -/
def satisfiedBy (t : Token) (v : Vertex) : Bool :=
  t.isUniversal || (t.members ≠ [] && t.members.all (· ∈ v.tags))

/-- The tokens of a piece. -/
def ofPiece (piece : String) : List Token := (Text.split '|' piece).filterMap read?

end Token

namespace Request

/-- The pieces of the text that are about tags: those of the tag filter, or every other one of
the sequence. -/
def tagPieces (q : Request) : List String :=
  if Text.isBlank (q.sequence.getD "") then
    match q.tagFilter with
    | none => [""]
    | some filter => Text.split ',' filter
  else
    match everyOther (!q.beginAtStart) (Text.split ',' (q.sequence.getD "")) with
    | [] => [""]
    | piece :: pieces => piece :: pieces

/-- Some piece has a token for ends or terminators, so that nothing else is a result. -/
def endsOnly (q : Request) : Bool :=
  q.tagPieces.any fun piece =>
    (Token.ofPiece piece).any fun t => t.role = .endVertex || t.role = .terminator

/-- What a piece says of a vertex at this depth. -/
def readPiece (q : Request) (piece : String) (depth : Nat) (v : Vertex) : Decision :=
  let satisfied (role : Role) : Bool :=
    (Token.ofPiece piece).any fun t => t.role = role && t.satisfiedBy v
  let restricted : Bool := (Token.ofPiece piece).any fun t => t.role = .whitelist && t.asks
  let below : Bool := depth < q.minLevel.toNat
  if satisfied .blacklist then .excludeAndPrune
  else if satisfied .terminator then
    if below then .excludeAndContinue else .includeAndPrune
  else if satisfied .endVertex then
    if below then .excludeAndContinue else .includeAndContinue
  else if !restricted || satisfied .whitelist then
    if q.endsOnly || below then .excludeAndContinue else .includeAndContinue
  else .excludeAndPrune

/-- What the pieces about tags say of a path of this length that ends on `v`. -/
def readTags (q : Request) (depth : Nat) (v : Vertex) : Decision :=
  if depth = 0 && !(q.filterStart && q.beginAtStart) then
    if q.endsOnly then .excludeAndContinue else .includeAndContinue
  else
    let position := if q.beginAtStart then depth else depth - 1
    q.readPiece (q.tagPieces.getD (position % q.tagPieces.length) "") depth v

/-- What the request says of a path of this length that ends on `v`: the path is a result if both
its tags and its lists say so, and the walk goes on if both let it. -/
def read (q : Request) (depth : Nat) (v : Vertex) : Decision where
  includes := (q.readTags depth v).includes && (q.decideLists depth v.id).includes
  continues := (q.readTags depth v).continues && (q.decideLists depth v.id).continues

theorem tagPieces_ne_nil (q : Request) : q.tagPieces ≠ [] := by
  unfold tagPieces
  split
  · split
    · simp
    · exact Text.split_ne_nil _ _
  · split <;> simp

end Request

/-! ### The tokens of a piece and its rule -/

/-- The clause of a token. -/
def Token.clause (t : Token) : Clause := ⟨t.role, .parse t.body⟩

theorem Clause.parse?_eq (alternative : String) :
    Clause.parse? alternative = (Token.read? alternative).map Token.clause := by
  rw [Clause.parse?, Token.read?, Text.trim, String.toList_ofList]
  cases Chars.trim alternative.toList with
  | nil => rfl
  | cons c body =>
    dsimp only
    split
    · next role h =>
      -- A mark: it stands for the role that it gives.
      unfold Role.ofMark? at h
      split at h <;> cases h <;> rfl
    · next h =>
      unfold Role.ofMark? at h
      split at h
      case h_5 => simp [Token.clause]
      all_goals cases h

namespace Token

theorem holds_parse (t : Token) (v : Vertex) :
    (Requirement.parse t.body).holds v.tags = t.satisfiedBy v := by
  unfold Requirement.parse satisfiedBy isUniversal
  split
  · next h => simp [Requirement.holds, h]
  · next h =>
    have hne : (∃ tag, tag ∈ t.members) ↔ t.members ≠ [] := by
      constructor
      · rintro ⟨tag, htag⟩
        exact List.ne_nil_of_mem htag
      · exact List.exists_mem_of_ne_nil _
    rw [Bool.eq_iff_iff, Requirement.holds_tags_iff]
    simp only [Requirement.members, SortedSet.mem_ofList, h, decide_false, Bool.false_or,
      Bool.and_eq_true, decide_eq_true_eq, List.all_eq_true]
    exact and_congr_left' hne

theorem isNone_add_parse (t : Token) (p : Pattern) :
    (p.add (.parse t.body)).isNone = (p.isNone && !t.asks) := by
  have hempty : (Requirement.members t.body).isEmpty = decide (t.members = []) := by
    rw [Bool.eq_iff_iff, SortedSet.isEmpty_iff, decide_eq_true_eq, List.eq_nil_iff_forall_not_mem]
    simp only [Requirement.members, SortedSet.mem_ofList, members]
  unfold Requirement.parse asks isUniversal
  cases p with
  | all => rfl
  | anyOf alternatives =>
    split
    · next h => simp [Pattern.add, Pattern.isNone, h]
    · next h =>
      have hinsert : (alternatives.insert (Requirement.members t.body)).isEmpty = false := by
        rw [← Bool.not_eq_true, SortedSet.isEmpty_iff]
        exact fun hnone => hnone _ (SortedSet.mem_insert.mpr (Or.inl rfl))
      rw [Pattern.add, hempty]
      by_cases hmembers : t.members = [] <;> simp [h, hmembers, Pattern.isNone, hinsert]

end Token

/-! ### The rule of a piece -/

namespace TagRule

/-- The rule with the clauses of some tokens. -/
def addTokens (r : TagRule) (tokens : List Token) : TagRule :=
  tokens.foldl (fun r t => r.addClause t.clause) r

theorem parse_eq (piece : String) : parse piece = empty.addTokens (Token.ofPiece piece) := by
  have h : ∀ (alternatives : List String) (r : TagRule),
      alternatives.foldl addToken r = r.addTokens (alternatives.filterMap Token.read?) := by
    intro alternatives
    induction alternatives with
    | nil => exact fun r => rfl
    | cons a rest ih =>
      intro r
      rw [List.foldl_cons, ih, List.filterMap_cons, addToken, Clause.parse?_eq]
      cases Token.read? a <;> rfl
  exact h _ _

/-- What a token adds to a rule one by one, tokens add to it together. -/
theorem any_addTokens (known : TagRule → Bool) {adds : Token → Bool}
    (h : ∀ r t, known (r.addClause t.clause) = (known r || adds t)) (tokens : List Token)
    (r : TagRule) : known (r.addTokens tokens) = (known r || tokens.any adds) := by
  induction tokens generalizing r with
  | nil => simp [addTokens]
  | cons t rest ih =>
    rw [List.any_cons, ← Bool.or_assoc, ← h]
    exact ih _

/-- The pattern of a role accepts what one of its tokens is satisfied by. -/
theorem accepts_addTokens (tokens : List Token) (r : TagRule) (role : Role) (v : Vertex) :
    ((r.addTokens tokens).pattern role).accepts v.tags
      = ((r.pattern role).accepts v.tags ||
          tokens.any fun t => t.role = role && t.satisfiedBy v) := by
  refine any_addTokens (fun r => (r.pattern role).accepts v.tags) (fun r t => ?_) tokens r
  rw [pattern_addClause]
  by_cases h : role = t.role
  · simp [Token.clause, h, Pattern.accepts_add, Token.holds_parse]
  · simp [Token.clause, h, Ne.symm h]

/-- The pattern of a role is a restriction once one of its tokens asks for something. -/
theorem isNone_addTokens (tokens : List Token) (r : TagRule) (role : Role) :
    (!((r.addTokens tokens).pattern role).isNone)
      = (!(r.pattern role).isNone || tokens.any fun t => t.role = role && t.asks) := by
  refine any_addTokens (fun r => !(r.pattern role).isNone) (fun r t => ?_) tokens r
  rw [pattern_addClause]
  by_cases h : role = t.role
  · simp [Token.clause, h, Token.isNone_add_parse]
  · simp [Token.clause, h, Ne.symm h]

theorem endsOnly_addTokens (tokens : List Token) (r : TagRule) :
    (r.addTokens tokens).endsOnly
      = (r.endsOnly || tokens.any fun t => t.role = .endVertex || t.role = .terminator) := by
  refine any_addTokens endsOnly (fun r t => ?_) tokens r
  rw [endsOnly_addClause]
  cases hrole : t.role <;> simp [Token.clause, hrole, Role.marksEnds]

end TagRule

/-! ### The sequence of a request -/

theorem Token.ofPiece_trim (piece : String) : ofPiece (Text.trim piece) = ofPiece piece := by
  have h : ∀ alternatives : List String,
      alternatives.filterMap read? = (alternatives.map Text.trim).filterMap read? := by
    intro alternatives
    rw [List.filterMap_map]
    refine List.filterMap_congr fun a _ => ?_
    rw [Function.comp_apply, read?, read?, Text.trim_trim]
  rw [ofPiece, ofPiece, h, Text.map_trim_split_trim (by decide), ← h]

theorem TagRule.parse_trim (piece : String) : parse (Text.trim piece) = parse piece := by
  rw [parse_eq, parse_eq, Token.ofPiece_trim]

/-- The position in force at a depth that has one. -/
theorem DepthCycle.at?_eq {α : Type} {c : DepthCycle α} (hne : c.positions ≠ []) {depth : Nat}
    (hdepth : c.offset = true → depth ≠ 0) :
    c.at? depth = c.positions[(if c.offset then depth - 1 else depth) % c.positions.length]? := by
  obtain ⟨positions, offset⟩ := c
  unfold at? indexAt
  rw [if_neg (by simpa using hne)]
  cases offset with
  | false => rfl
  | true =>
    cases depth with
    | zero => exact absurd rfl (hdepth rfl)
    | succ d => rfl

namespace TagSequence

theorem spreadEndsOnly_eq (rules : List TagRule) :
    spreadEndsOnly rules = rules.map ({ · with endsOnly := rules.any (·.endsOnly) }) := by
  unfold spreadEndsOnly
  split
  · next h => rw [h]
  · next h =>
    rw [Bool.not_eq_true] at h
    refine (List.map_congr_left fun r hr => ?_).trans (List.map_id _) |>.symm
    have hr' : r.endsOnly = false := by simpa using List.any_eq_false.mp h r hr
    rw [h, ← hr', id]

theorem ofFilters_congr {filters filters' : List String}
    (h : filters.map TagRule.parse = filters'.map TagRule.parse) (options : SequenceOptions) :
    ofFilters filters options = ofFilters filters' options := by
  rw [ofFilters, ofFilters, h]

end TagSequence

namespace Request

theorem sequence?_eq (q : Request) :
    q.sequence? = if Text.isBlank (q.sequence.getD "") then none else q.sequence.getD "" := by
  rw [sequence?]
  cases q.sequence with
  | none => rfl
  | some s => cases h : Text.isBlank s <;> simp [h]

theorem tagSequence_eq_ofFilters (q : Request) :
    q.tagSequence = .ofFilters q.tagPieces q.options := by
  unfold tagSequence tagPieces
  rw [sequence?_eq]
  by_cases hblank : Text.isBlank (q.sequence.getD "")
  · simp only [if_pos hblank]
    cases q.tagFilter <;> rfl
  · simp only [if_neg hblank, splitSequence_eq]
    cases everyOther (!q.beginAtStart) (Text.split ',' (q.sequence.getD "")) with
    | nil => rfl
    | cons piece pieces =>
      refine TagSequence.ofFilters_congr ?_ _
      rw [List.map_map]
      refine List.map_congr_left fun piece _ => ?_
      rw [Function.comp_apply, TagRule.parse_trim]

theorem endsOnly_eq (q : Request) :
    q.endsOnly = (q.tagPieces.map TagRule.parse).any (·.endsOnly) := by
  rw [endsOnly, List.any_map]
  congr 1
  funext piece
  rw [Function.comp_apply, TagRule.parse_eq, TagRule.endsOnly_addTokens]
  rfl

/-- The rule of a piece in a request. -/
def rule (q : Request) (piece : String) : TagRule :=
  { TagRule.parse piece with endsOnly := q.endsOnly }

/-- The rules of a request are those of its pieces. -/
theorem tagSequence_eq (q : Request) :
    q.tagSequence
      = { rules := ⟨q.tagPieces.map q.rule, !q.beginAtStart⟩
          options := q.options
          startDecision := if q.endsOnly then .excludeAndContinue else .includeAndContinue } := by
  rw [tagSequence_eq_ofFilters, TagSequence.ofFilters, if_neg (by simpa using q.tagPieces_ne_nil),
    TagSequence.spreadEndsOnly_eq, ← endsOnly_eq, List.map_map]
  rfl

/-- The rule of a piece decides as the piece reads. -/
theorem decide_rule (q : Request) (piece : String) (depth : Nat) (v : Vertex) :
    (q.rule piece).decide v.tags (depth < q.minLevel.toNat) = q.readPiece piece depth v := by
  have haccepts : ∀ role, ((TagRule.parse piece).pattern role).accepts v.tags
      = (Token.ofPiece piece).any fun t => t.role = role && t.satisfiedBy v := by
    intro role
    rw [TagRule.parse_eq, TagRule.accepts_addTokens]
    cases role <;> rfl
  have hasks : ((Token.ofPiece piece).any fun t => t.role = .whitelist && t.asks)
      = !(TagRule.parse piece).whitelist.isNone := by
    have h := TagRule.isNone_addTokens (Token.ofPiece piece) .empty .whitelist
    rw [← TagRule.parse_eq] at h
    exact h.symm
  simp only [TagRule.decide, rule, readPiece, ← haccepts, hasks, Bool.not_not]
  rfl

theorem decide_tagSequence (q : Request) (depth : Nat) (v : Vertex) :
    q.tagSequence.decide depth v = q.readTags depth v := by
  rw [tagSequence_eq, TagSequence.decide, readTags]
  refine ite_congr rfl (fun _ => rfl) fun hstart => ?_
  -- The start has a position, unless the rules begin on the first hop.
  have hdepth : (!q.beginAtStart) = true → depth ≠ 0 := by
    rintro hbegin rfl
    simp_all
  have hposition : (if (!q.beginAtStart) = true then depth - 1 else depth)
      = if q.beginAtStart then depth else depth - 1 := by
    cases q.beginAtStart <;> rfl
  have hlt := Nat.mod_lt (if q.beginAtStart then depth else depth - 1)
    (List.length_pos_of_ne_nil q.tagPieces_ne_nil)
  rw [DepthCycle.at?_eq (by simpa using q.tagPieces_ne_nil) hdepth]
  simp only [hposition, List.length_map, List.getElem?_map, List.getElem?_eq_getElem hlt,
    Option.map_some, List.getD_eq_getElem _ _ hlt]
  exact q.decide_rule _ depth v

end Request

/-- **A compiled request decides about a path as its text reads.** -/
theorem decidePath_eq_read {q : Request} (hq : q.validate = .ok ()) :
    ∃ plan, q.compile = .ok plan ∧
      ∀ p : Path, plan.evaluator.decidePath p = q.read p.length p.last := by
  refine ⟨q.plan, Request.compile_eq_ok_iff.mpr ⟨hq, rfl⟩, fun p => ?_⟩
  rw [Evaluator.decidePath, Request.decide_plan, Request.decide_tagSequence]
  exact Decision.ext (Decision.includes_and _ _) (Decision.continues_and _ _)

/-- An end that the second rule of a sequence names, seen from the first hop. -/
theorem decidePath_eq_read_of_sequence :
    ∃ plan,
      Request.compile { sequence := some "KNOWS, * , LIKES> , -Draft|> Actor : Famous",
                        beginAtStart := false, minLevel := 1, blacklist := [⟨0⟩] } = .ok plan ∧
      plan.evaluator.decidePath (.hop (.hop (.start ⟨⟨0⟩, .empty⟩)
        ⟨⟨0⟩, "KNOWS", ⟨0⟩, ⟨1⟩⟩ ⟨⟨1⟩, .empty⟩)
        ⟨⟨1⟩, "LIKES", ⟨1⟩, ⟨2⟩⟩ ⟨⟨2⟩, .ofList ["Actor", "Famous", "Person"]⟩)
        = .includeAndContinue := by
  obtain ⟨plan, hplan, hread⟩ := @decidePath_eq_read
    { sequence := some "KNOWS, * , LIKES> , -Draft|> Actor : Famous",
      beginAtStart := false, minLevel := 1, blacklist := [⟨0⟩] } rfl
  exact ⟨plan, hplan, (hread _).trans (by decide)⟩

end WalkFilter
