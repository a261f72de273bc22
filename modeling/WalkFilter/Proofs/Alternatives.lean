/-
What is left of the order in which alternatives are written: nothing.

A pattern takes its requirements one by one, and the first one that asks for
nothing wipes out those before it and shuts out those after it.  In the end
the pattern still knows no more than the set of what it was given:

* **`addAll_eq_all_iff`**, **`lists_addAll_iff`** — what a pattern is after
  any number of requirements;
* **`pattern_addTokens`** — the pattern of a role has collected the tokens of
  that role and no others;
* **`parse_eq_parse`** — tag filters whose pieces say the same set of things
  are parsed alike.
-/
import WalkFilter.Proofs.Reading

namespace WalkFilter

namespace Pattern

/-- The set is one of the alternatives.  The pattern that accepts every vertex has none. -/
def Lists (asked : TagSet) : Pattern → Prop
  | all => False
  | anyOf alternatives => asked ∈ alternatives

instance (asked : TagSet) (p : Pattern) : Decidable (p.Lists asked) :=
  match p with
  | all => inferInstanceAs (Decidable False)
  | anyOf alternatives => inferInstanceAs (Decidable (asked ∈ alternatives))

/-- The pattern with further requirements, one after the other. -/
def addAll (p : Pattern) (requirements : List Requirement) : Pattern := requirements.foldl add p

variable {p p' : Pattern} {asked : TagSet} {r : Requirement} {l m : List Requirement}

theorem ext (hall : p = all ↔ p' = all) (h : ∀ asked, p.Lists asked ↔ p'.Lists asked) :
    p = p' := by
  cases p with
  | all => exact (hall.mp rfl).symm
  | anyOf alternatives =>
    cases p' with
    | all => exact hall.mpr rfl
    | anyOf alternatives' => exact congrArg anyOf (SortedSet.ext h)

theorem ne_all_of_lists (h : p.Lists asked) : p ≠ all := by
  rintro rfl
  exact h

theorem add_eq_all_iff : p.add r = all ↔ p = all ∨ r = .universal := by
  cases p with
  | all => simp [add]
  | anyOf alternatives =>
    cases r with
    | universal => simp [add]
    | tags asked =>
      rw [add]
      split_ifs <;> simp

theorem lists_add_iff :
    (p.add r).Lists asked ↔
      r ≠ .universal ∧ p ≠ all ∧ (p.Lists asked ∨ r = .tags asked ∧ ∃ t, t ∈ asked) := by
  cases p with
  | all => simp [add, Lists]
  | anyOf alternatives =>
    cases r with
    | universal => simp [add, Lists]
    | tags added =>
      have hempty : added.isEmpty = false ↔ ∃ t, t ∈ added := by
        rw [← Bool.not_eq_true, SortedSet.isEmpty_iff]
        simp
      rw [add]
      cases he : added.isEmpty with
      | true =>
        -- A requirement of no tags is no alternative.
        have hnone : ¬ (Requirement.tags added = .tags asked ∧ ∃ t, t ∈ asked) := by
          rintro ⟨heq, hne⟩
          cases heq
          rw [← hempty, he] at hne
          cases hne
        rw [if_pos rfl, or_iff_left hnone]
        simp
      | false =>
        have hmem : (anyOf (alternatives.insert added)).Lists asked ↔
            asked = added ∨ (anyOf alternatives).Lists asked := SortedSet.mem_insert
        rw [if_neg Bool.false_ne_true, hmem]
        constructor
        · rintro (rfl | h)
          · exact ⟨by simp, by simp, Or.inr ⟨rfl, hempty.mp he⟩⟩
          · exact ⟨by simp, by simp, Or.inl h⟩
        · rintro ⟨-, -, h | ⟨heq, -⟩⟩
          · exact Or.inr h
          · cases heq
            exact Or.inl rfl

theorem addAll_eq_all_iff : p.addAll l = all ↔ p = all ∨ .universal ∈ l := by
  induction l generalizing p with
  | nil => simp [addAll]
  | cons r rest ih =>
    show (p.add r).addAll rest = all ↔ _
    rw [ih, add_eq_all_iff, List.mem_cons, or_assoc, @eq_comm _ r]

theorem lists_addAll_iff :
    (p.addAll l).Lists asked ↔
      .universal ∉ l ∧ p ≠ all ∧ (p.Lists asked ∨ .tags asked ∈ l ∧ ∃ t, t ∈ asked) := by
  induction l generalizing p with
  | nil =>
    show p.Lists asked ↔ _
    simpa using ne_all_of_lists
  | cons r rest ih =>
    show ((p.add r).addAll rest).Lists asked ↔ _
    rw [ih, ne_eq, add_eq_all_iff, lists_add_iff, List.mem_cons, List.mem_cons,
      @eq_comm _ Requirement.universal r, @eq_comm _ (Requirement.tags asked) r]
    tauto

/-- **A pattern knows no more than the set of its requirements.** -/
theorem addAll_congr (h : ∀ r, r ∈ l ↔ r ∈ m) : p.addAll l = p.addAll m := by
  refine ext ?_ fun asked => ?_
  · rw [addAll_eq_all_iff, addAll_eq_all_iff, h]
  · rw [lists_addAll_iff, lists_addAll_iff, h, h]

end Pattern

/-! ### What tokens say -/

namespace Token

/-- What a token says, whatever the order and the spelling: its role, and the tags that it asks
for.  A lone '*' asks for none in particular. -/
def normal (t : Token) : Role × Option (Finset String) :=
  (t.role, if t.isUniversal then none else some t.members.toFinset)

/-- What the alternatives of a piece say. -/
def normals (piece : String) : Finset (Role × Option (Finset String)) :=
  ((ofPiece piece).map normal).toFinset

theorem role_eq_of_normal_eq {t u : Token} (h : t.normal = u.normal) : t.role = u.role :=
  congrArg Prod.fst h

theorem parse_body_eq_of_normal_eq {t u : Token} (h : t.normal = u.normal) :
    Requirement.parse t.body = Requirement.parse u.body := by
  have hasked : (if t.isUniversal then none else some t.members.toFinset)
      = if u.isUniversal then none else some u.members.toFinset := by
    rw [normal, normal] at h
    exact (Prod.mk.inj h).2
  have hparse : ∀ t : Token, Requirement.parse t.body
      = if t.isUniversal then .universal else .tags (.ofList t.members) := by
    intro t
    simp only [Requirement.parse, isUniversal, decide_eq_true_eq, Requirement.members, members]
  rw [hparse, hparse]
  split_ifs at hasked ⊢ with ht hu
  · rfl
  · have hmembers : t.members.toFinset = u.members.toFinset := Option.some.inj hasked
    have hset : SortedSet.ofList t.members = SortedSet.ofList u.members := by
      refine SortedSet.ext fun tag => ?_
      rw [SortedSet.mem_ofList, SortedSet.mem_ofList, ← List.mem_toFinset, hmembers,
        List.mem_toFinset]
    rw [hset]

/-- What some tokens of a role ask for. -/
def requirements (tokens : List Token) (role : Role) : List Requirement :=
  (tokens.filter (·.role = role)).map fun t => .parse t.body

section Normals

variable {piece piece' : String}

/-- If one piece says no more than another, each of its tokens is matched by one of the other. -/
theorem exists_of_normals_subset (h : normals piece ⊆ normals piece') {t : Token}
    (ht : t ∈ ofPiece piece) : ∃ u ∈ ofPiece piece', u.normal = t.normal := by
  have hmem : t.normal ∈ normals piece' :=
    h (List.mem_toFinset.mpr (List.mem_map_of_mem ht))
  exact List.mem_map.mp (List.mem_toFinset.mp hmem)

theorem requirements_subset (h : normals piece ⊆ normals piece') (role : Role) :
    requirements (ofPiece piece) role ⊆ requirements (ofPiece piece') role := by
  intro r hr
  obtain ⟨t, ht, rfl⟩ := List.mem_map.mp hr
  obtain ⟨ht, hrole⟩ := List.mem_filter.mp ht
  obtain ⟨u, hu, hnormal⟩ := exists_of_normals_subset h ht
  rw [← role_eq_of_normal_eq hnormal] at hrole
  rw [← parse_body_eq_of_normal_eq hnormal]
  exact List.mem_map.mpr ⟨u, List.mem_filter.mpr ⟨hu, hrole⟩, rfl⟩

theorem any_role_of_normals_subset (h : normals piece ⊆ normals piece') {f : Role → Bool}
    (hany : (ofPiece piece).any fun t => f t.role) : (ofPiece piece').any fun t => f t.role := by
  obtain ⟨t, ht, hf⟩ := List.any_eq_true.mp hany
  obtain ⟨u, hu, hnormal⟩ := exists_of_normals_subset h ht
  rw [← role_eq_of_normal_eq hnormal] at hf
  exact List.any_eq_true.mpr ⟨u, hu, hf⟩

end Normals

end Token

namespace TagRule

/-- A rule is determined by its patterns and by what it restricts the results to. -/
theorem ext_pattern {r r' : TagRule} (hpattern : ∀ role, r.pattern role = r'.pattern role)
    (hends : r.endsOnly = r'.endsOnly) : r = r' := by
  have hwhite := hpattern .whitelist
  have hblack := hpattern .blacklist
  have hend := hpattern .endVertex
  have hterminator := hpattern .terminator
  cases r
  cases r'
  simp only [pattern] at hwhite hblack hend hterminator hends
  rw [hwhite, hblack, hend, hterminator, hends]

/-- The pattern of a role has collected the tokens of that role. -/
theorem pattern_addTokens (tokens : List Token) (r : TagRule) (role : Role) :
    (r.addTokens tokens).pattern role
      = (r.pattern role).addAll (Token.requirements tokens role) := by
  induction tokens generalizing r with
  | nil => rfl
  | cons t rest ih =>
    show ((r.addClause t.clause).addTokens rest).pattern role = _
    rw [ih, pattern_addClause, Token.requirements, Token.requirements, List.filter_cons]
    by_cases h : t.role = role
    · rw [if_pos (show role = t.clause.role from h.symm), if_pos (decide_eq_true h)]
      rfl
    · rw [if_neg (show ¬ role = t.clause.role from Ne.symm h), if_neg (by simpa using h)]

/-- Pieces that say the same things have the same rule. -/
theorem parse_congr {piece piece' : String} (h : Token.normals piece = Token.normals piece') :
    parse piece = parse piece' := by
  have hle := Finset.subset_of_eq h
  have hge := Finset.subset_of_eq h.symm
  rw [parse_eq, parse_eq]
  refine ext_pattern (fun role => ?_) ?_
  · rw [pattern_addTokens, pattern_addTokens]
    exact Pattern.addAll_congr fun r =>
      ⟨fun hr => Token.requirements_subset hle role hr,
        fun hr => Token.requirements_subset hge role hr⟩
  · let marks (role : Role) : Bool := role = .endVertex || role = .terminator
    have hany : ((Token.ofPiece piece).any fun t => marks t.role)
        = (Token.ofPiece piece').any fun t => marks t.role :=
      Bool.eq_iff_iff.mpr ⟨Token.any_role_of_normals_subset hle,
        Token.any_role_of_normals_subset hge⟩
    rw [endsOnly_addTokens, endsOnly_addTokens, hany]

end TagRule

/-- **A tag filter means no more than the sets of alternatives of its pieces**: filters with as
many pieces that say the same things, piece by piece, are parsed to one sequence, and so they
decide alike about every path. -/
theorem TagSequence.parse_eq_parse {filter filter' : Option String}
    (h : (Text.split ',' (filter.getD "")).map Token.normals
      = (Text.split ',' (filter'.getD "")).map Token.normals) (options : SequenceOptions) :
    parse filter options = parse filter' options ∧
      ∀ depth v, (parse filter options).decide depth v = (parse filter' options).decide depth v := by
  have hrules : (Text.split ',' (filter.getD "")).map TagRule.parse
      = (Text.split ',' (filter'.getD "")).map TagRule.parse := by
    rw [← List.forall₂_eq_eq_eq, List.forall₂_map_left_iff, List.forall₂_map_right_iff] at h ⊢
    exact h.imp fun piece piece' hpiece => TagRule.parse_congr hpiece
  have hparse : parse filter options = parse filter' options := ofFilters_congr hrules options
  exact ⟨hparse, fun depth v => by rw [hparse]⟩

/-- Order, repetition, blanks, colons and a missing '+' do not matter. -/
theorem TagSequence.parse_eq_parse_shuffled :
    parse (some "+B:A|-X| |*,>") ⟨true, false, 2⟩
      = parse (some "* | :A : B:A |-: X|-X,||> ") ⟨true, false, 2⟩ :=
  (parse_eq_parse (by decide +kernel) ⟨true, false, 2⟩).1

end WalkFilter
