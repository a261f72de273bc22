/-
Patterns written down and read back.

A pattern is written as a filter: its alternatives with bars between them, and
the tags of an alternative with colons between them.  The tags of a pattern
that has been read from tokens are trimmed and hold neither bars nor colons, so
the filter is cut again where it was joined.  Only the tag '*' by itself does
not come back: as a token it asks for nothing.

* **`parse_written`** — a set of tags comes back, unless '*' is its only tag;
* **`isWritten_ofTokens`** — what the alternatives of a pattern look like that
  has been read from tokens;
* **`ofTokens_split_render`** — a pattern comes back just if '*' is not one of
  its single tags, and else every vertex is accepted.
-/
import WalkFilter.Proofs.Alternatives

namespace WalkFilter

/-- A tag as it is found between the colons of a token: nothing is left to trim or to cut. -/
structure IsTagName (tag : String) : Prop where
  trimmed : Text.trim tag = tag
  ne_empty : tag ≠ ""
  colon : ':' ∉ tag.toList
  bar : '|' ∉ tag.toList

theorem isTagName_of_mem_members {body tag : String} (hbar : '|' ∉ body.toList)
    (h : tag ∈ Requirement.members body) : IsTagName tag := by
  rw [Requirement.members, SortedSet.mem_ofList, List.mem_filter] at h
  obtain ⟨htag, hne⟩ := h
  obtain ⟨piece, hpiece, rfl⟩ := List.mem_map.mp htag
  have hmem : ∀ c, c ∈ (Text.trim piece).toList → c ∈ piece.toList := by
    intro c hc
    rw [Text.trim, String.toList_ofList] at hc
    exact Chars.mem_of_mem_trim hc
  exact ⟨Text.trim_trim piece, of_decide_eq_true hne,
    fun hc => Text.not_mem_of_mem_split hpiece (hmem _ hc),
    fun hc => hbar (Text.mem_of_mem_split hpiece (hmem _ hc))⟩

namespace Requirement

/-- A set of tags as a token. -/
def written (asked : TagSet) : String := Text.join ':' asked.toList

variable {asked : TagSet}

theorem split_written (hne : ∃ t, t ∈ asked) (h : ∀ t ∈ asked, IsTagName t) :
    (Text.split ':' (written asked)).map Text.trim = asked.toList := by
  obtain ⟨t, ht⟩ := hne
  rw [written, Text.split_join (List.ne_nil_of_mem ht) fun t ht => (h t ht).colon]
  exact (List.map_congr_left fun t ht => (h t ht).trimmed).trans (List.map_id _)

theorem members_written (hne : ∃ t, t ∈ asked) (h : ∀ t ∈ asked, IsTagName t) :
    members (written asked) = asked := by
  have hfilter : asked.toList.filter (· ≠ "") = asked.toList :=
    List.filter_eq_self.mpr fun t ht => decide_eq_true (h t ht).ne_empty
  rw [members, split_written hne h, hfilter]
  exact SortedSet.ext fun t => SortedSet.mem_ofList

theorem trim_written_eq_star_iff (hne : ∃ t, t ∈ asked) (h : ∀ t ∈ asked, IsTagName t) :
    Text.trim (written asked) = "*" ↔ asked = .singleton "*" := by
  constructor
  · intro hstar
    -- The trimmed pieces of the text are those of the trimmed text, and '*' is one piece.
    have hpieces := Text.map_trim_split_trim (by decide : ¬ Chars.isBlank ':') (written asked)
    rw [hstar, split_written hne h] at hpieces
    exact SortedSet.toList_injective hpieces.symm
  · rintro rfl
    rw [written, SortedSet.singleton, Text.join_singleton]
    exact (h "*" (SortedSet.mem_singleton.mpr rfl)).trimmed

/-- **A set of tags comes back from its token**, unless '*' is its only tag. -/
theorem parse_written (hne : ∃ t, t ∈ asked) (h : ∀ t ∈ asked, IsTagName t) :
    parse (written asked) = if asked = .singleton "*" then universal else tags asked := by
  rw [parse, members_written hne h]
  exact if_congr (trim_written_eq_star_iff hne h) rfl rfl

theorem bar_not_mem_written (h : ∀ t ∈ asked, IsTagName t) : '|' ∉ (written asked).toList := by
  intro hbar
  obtain hcolon | ⟨t, ht, hmem⟩ := Text.mem_join_cases hbar
  · exact absurd hcolon (by decide)
  · exact (h t ht).bar hmem

end Requirement

namespace Pattern

/-- The pattern of some tokens. -/
def ofTokens (tokens : List String) : Pattern := tokens.foldl addToken none

theorem ofTokens_eq (tokens : List String) :
    ofTokens tokens = none.addAll (tokens.map Requirement.parse) := by
  rw [ofTokens, addAll, List.foldl_map]
  rfl

/-- Each alternative asks for something, and its tags are such as are found in tokens. -/
def IsWritten (p : Pattern) : Prop :=
  ∀ asked, p.Lists asked → (∃ t, t ∈ asked) ∧ ∀ t ∈ asked, IsTagName t

theorem isWritten_addToken {p : Pattern} (hp : p.IsWritten) {token : String}
    (hbar : '|' ∉ token.toList) : (p.addToken token).IsWritten := by
  intro asked hasked
  obtain ⟨-, -, hold | ⟨hnew, hne⟩⟩ := lists_add_iff.mp hasked
  · exact hp asked hold
  · rw [Requirement.parse] at hnew
    split at hnew
    · cases hnew
    · cases hnew
      exact ⟨hne, fun t ht => isTagName_of_mem_members hbar ht⟩

/-- The alternatives of a pattern that has been read from tokens. -/
theorem isWritten_ofTokens {tokens : List String} (hbar : ∀ t ∈ tokens, '|' ∉ t.toList) :
    (ofTokens tokens).IsWritten := by
  have hrun : ∀ p : Pattern, p.IsWritten → (tokens.foldl addToken p).IsWritten := by
    induction tokens with
    | nil => exact fun p hp => hp
    | cons t rest ih =>
      obtain ⟨ht, hrest⟩ := List.forall_mem_cons.mp hbar
      exact fun p hp => ih hrest _ (isWritten_addToken hp ht)
  exact hrun none fun asked hasked => absurd hasked SortedSet.not_mem_empty

/-! ### The filter of a pattern -/

variable {p : Pattern} {asked : TagSet}

theorem mem_singles {tag : String} : tag ∈ p.singles ↔ p.Lists (.singleton tag) := by
  cases p with
  | all => simp [singles, Lists]
  | anyOf alternatives =>
    rw [singles, List.mem_filterMap]
    constructor
    · rintro ⟨asked, hasked, h⟩
      split at h
      · next heq =>
        cases h
        have hlone : asked = .singleton tag := SortedSet.toList_injective heq
        exact hlone ▸ hasked
      · cases h
    · exact fun h => ⟨.singleton tag, h, rfl⟩

theorem mem_compounds : asked ∈ p.compounds ↔ p.Lists asked ∧ asked.size ≠ 1 := by
  cases p with
  | all => simp [compounds, Lists]
  | anyOf alternatives => simp [compounds, Lists, SortedSet.mem_toList]

/-- The alternatives of a pattern as tokens, those of a single tag first. -/
def pieces (p : Pattern) : List String := p.singles ++ p.compounds.map Requirement.written

theorem render_eq (h : p ≠ all) : p.render = Text.join '|' p.pieces := by
  cases p with
  | all => exact absurd rfl h
  | anyOf alternatives => rfl

theorem mem_pieces {piece : String} :
    piece ∈ p.pieces ↔ ∃ asked, p.Lists asked ∧ Requirement.written asked = piece := by
  have hsingle : ∀ tag, Requirement.written (.singleton tag) = tag :=
    fun tag => Text.join_singleton ':' tag
  rw [pieces, List.mem_append, mem_singles, List.mem_map]
  constructor
  · rintro (h | ⟨asked, hasked, rfl⟩)
    · exact ⟨_, h, hsingle piece⟩
    · exact ⟨asked, (mem_compounds.mp hasked).1, rfl⟩
  · rintro ⟨asked, hasked, rfl⟩
    by_cases hsize : asked.size = 1
    · obtain ⟨tag, htag⟩ := List.length_eq_one_iff.mp hsize
      obtain rfl : asked = .singleton tag := SortedSet.toList_injective htag
      rw [hsingle]
      exact Or.inl hasked
    · exact Or.inr ⟨asked, mem_compounds.mpr ⟨hasked, hsize⟩, rfl⟩

theorem ofTokens_split_join_pieces (hp : p.IsWritten) :
    ofTokens (Text.split '|' (Text.join '|' p.pieces)) = ofTokens p.pieces := by
  by_cases hnil : p.pieces = []
  · -- The empty text is one blank token, which adds nothing.
    rw [hnil]
    decide
  · rw [Text.split_join hnil fun piece hpiece => ?_]
    obtain ⟨asked, hasked, rfl⟩ := mem_pieces.mp hpiece
    exact Requirement.bar_not_mem_written (hp asked hasked).2

/-- What the alternatives of a pattern ask for once they have been read back. -/
theorem mem_map_parse_pieces (hp : p.IsWritten) {r : Requirement} :
    r ∈ p.pieces.map Requirement.parse ↔
      ∃ asked, p.Lists asked ∧ (if asked = .singleton "*" then .universal else .tags asked) = r := by
  rw [List.mem_map]
  constructor
  · rintro ⟨piece, hpiece, rfl⟩
    obtain ⟨asked, hasked, rfl⟩ := mem_pieces.mp hpiece
    obtain ⟨hsome, hnames⟩ := hp asked hasked
    exact ⟨asked, hasked, (Requirement.parse_written hsome hnames).symm⟩
  · rintro ⟨asked, hasked, rfl⟩
    obtain ⟨hsome, hnames⟩ := hp asked hasked
    exact ⟨_, mem_pieces.mpr ⟨asked, hasked, rfl⟩, Requirement.parse_written hsome hnames⟩

theorem universal_mem_map_parse_pieces (hp : p.IsWritten) :
    .universal ∈ p.pieces.map Requirement.parse ↔ "*" ∈ p.singles := by
  rw [mem_map_parse_pieces hp, mem_singles]
  constructor
  · rintro ⟨asked, hasked, h⟩
    split_ifs at h with hstar
    exact hstar ▸ hasked
  · exact fun h => ⟨_, h, if_pos rfl⟩

theorem tags_mem_map_parse_pieces (hp : p.IsWritten) :
    .tags asked ∈ p.pieces.map Requirement.parse ↔ p.Lists asked ∧ asked ≠ .singleton "*" := by
  rw [mem_map_parse_pieces hp]
  constructor
  · rintro ⟨asked', hasked', h⟩
    split_ifs at h with hstar
    cases h
    exact ⟨hasked', hstar⟩
  · exact fun ⟨hasked, hstar⟩ => ⟨asked, hasked, if_neg hstar⟩

/-- The alternatives of a pattern as tokens give the pattern, unless one of them is a lone '*'. -/
theorem ofTokens_pieces (hp : p.IsWritten) (hne : p ≠ all) :
    ofTokens p.pieces = if "*" ∈ p.singles then all else p := by
  have hnone : none ≠ all := by simp [Pattern.none]
  rw [ofTokens_eq]
  split_ifs with hstar
  · exact addAll_eq_all_iff.mpr (Or.inr ((universal_mem_map_parse_pieces hp).mpr hstar))
  · have huniversal : .universal ∉ p.pieces.map Requirement.parse :=
      fun h => hstar ((universal_mem_map_parse_pieces hp).mp h)
    refine ext (iff_of_false ?_ hne) fun asked => ?_
    · rw [addAll_eq_all_iff]
      exact not_or.mpr ⟨hnone, huniversal⟩
    · have hempty : ¬ none.Lists asked := SortedSet.not_mem_empty
      rw [lists_addAll_iff, tags_mem_map_parse_pieces hp, or_iff_right hempty]
      constructor
      · exact fun h => h.2.2.1.1
      · intro hasked
        have hlone : asked ≠ .singleton "*" := fun h => hstar (mem_singles.mpr (h ▸ hasked))
        exact ⟨huniversal, hnone, ⟨hasked, hlone⟩, (hp asked hasked).1⟩

end Pattern

/-- **A pattern comes back from the filter that it is written as just if '*' is not one of its
single tags**; with that tag the filter accepts every vertex. -/
theorem Pattern.ofTokens_split_render {tokens : List String}
    (hbar : ∀ t ∈ tokens, '|' ∉ t.toList) :
    (ofTokens (Text.split '|' (ofTokens tokens).render) = ofTokens tokens ↔
        "*" ∉ (ofTokens tokens).singles) ∧
      ∀ carried, (ofTokens (Text.split '|' (ofTokens tokens).render)).accepts carried
        = ((ofTokens tokens).accepts carried || decide ("*" ∈ (ofTokens tokens).singles)) := by
  have hread : ofTokens (Text.split '|' (ofTokens tokens).render)
      = if "*" ∈ (ofTokens tokens).singles then all else ofTokens tokens := by
    by_cases hall : ofTokens tokens = all
    · rw [hall]
      decide
    · have hwritten := isWritten_ofTokens hbar
      rw [render_eq hall, ofTokens_split_join_pieces hwritten, ofTokens_pieces hwritten hall]
  rw [hread]
  split_ifs with hstar
  · have hall : all ≠ ofTokens tokens := fun h => by
      rw [← h] at hstar
      exact absurd hstar List.not_mem_nil
    exact ⟨iff_of_false hall (not_not.mpr hstar), fun carried => by simp [hstar, accepts]⟩
  · exact ⟨iff_of_true rfl hstar, fun carried => by simp [hstar]⟩

/-- A star among other tags comes back. -/
theorem Pattern.ofTokens_split_render_compound :
    (ofTokens ["Western : Movie", " Person", "*:Film", ":Movie:Western"]).render
        = "Person|*:Film|Movie:Western" ∧
      ofTokens (Text.split '|' "Person|*:Film|Movie:Western")
        = ofTokens ["Western : Movie", " Person", "*:Film", ":Movie:Western"] := by
  have hrender : (ofTokens ["Western : Movie", " Person", "*:Film", ":Movie:Western"]).render
      = "Person|*:Film|Movie:Western" := by decide +kernel
  have hread := (@ofTokens_split_render ["Western : Movie", " Person", "*:Film", ":Movie:Western"]
    (by decide)).1.mpr (by decide +kernel)
  rw [hrender] at hread
  exact ⟨hrender, hread⟩

/-- A star after a colon is a tag, and is written like the star that asks for nothing. -/
theorem Pattern.ofTokens_split_render_star :
    (∀ t ∈ [":*"], '|' ∉ t.toList) ∧ (ofTokens [":*"]).render = "*" ∧
      ofTokens (Text.split '|' (ofTokens [":*"]).render) ≠ ofTokens [":*"] ∧
      (ofTokens [":*"]).accepts .empty = false ∧
      (ofTokens (Text.split '|' (ofTokens [":*"]).render)).accepts .empty = true := by
  decide +kernel

end WalkFilter
