/-
Edge types between quotes.

Quotes keep the marks, the colons and the blanks of an edge type from being
read as anything else.  They do not keep its commas and bars: an edge filter
is cut at these before any quote is looked at.

* **`parse_quoted`** — the step of a text with quotes has the name between
  them, and the direction of the marks around them;
* **`not_mem_of_mem_steps`** — no step of an edge filter has a name with a
  comma or a bar;
* **`parse_renderAll_iff`** — steps written with quotes are read back just if
  no name holds a comma or a bar.
-/
import WalkFilter.Proofs.Cut

namespace WalkFilter

namespace Chars

variable {c : Char} {cs : List Char}

/-- Trimming takes blanks only. -/
theorem mem_dropWhile_iff (h : ¬ isBlank c) : c ∈ cs.dropWhile isBlank ↔ c ∈ cs := by
  constructor
  · exact fun hc => (List.dropWhile_sublist _).subset hc
  · intro hc
    rw [← List.takeWhile_append_dropWhile (p := isBlank) (l := cs), List.mem_append] at hc
    exact hc.resolve_left fun htake => h (List.mem_takeWhile_imp htake)

theorem mem_rdropWhile_iff (h : ¬ isBlank c) : c ∈ cs.rdropWhile isBlank ↔ c ∈ cs := by
  rw [List.rdropWhile, List.mem_reverse, mem_dropWhile_iff h, List.mem_reverse]

end Chars

namespace EdgeStep

/-! ### A text with quotes -/

theorem forall_ne_quote {before : List Char} (h : quote ∉ before) :
    ∀ c ∈ before, decide (c ≠ quote) = true := by
  intro c hc
  rw [decide_eq_true_eq]
  exact fun heq => h (heq ▸ hc)

theorem dropWhile_ne_quote {before : List Char} (h : quote ∉ before) (rest : List Char) :
    (before ++ quote :: rest).dropWhile (· ≠ quote) = quote :: rest := by
  rw [List.dropWhile_append_of_pos (forall_ne_quote h), List.dropWhile_cons]
  simp

theorem takeWhile_ne_quote {before : List Char} (h : quote ∉ before) (rest : List Char) :
    (before ++ quote :: rest).takeWhile (· ≠ quote) = before := by
  rw [List.takeWhile_append_of_pos (forall_ne_quote h), List.takeWhile_cons]
  simp

theorem unquote?_eq {before after : List Char} (hbefore : quote ∉ before) (hafter : quote ∉ after)
    (name : List Char) :
    unquote? (before ++ quote :: (name ++ quote :: after)) = some (name, before ++ after) := by
  have hafter' : quote ∉ after.reverse := fun h => hafter (List.mem_reverse.mp h)
  -- Seen from the end, the last quote is the first one.
  have hreverse : (name ++ quote :: after).reverse = after.reverse ++ quote :: name.reverse := by
    simp
  unfold unquote?
  rw [dropWhile_ne_quote hbefore, takeWhile_ne_quote hbefore]
  dsimp only
  rw [hreverse, dropWhile_ne_quote hafter', takeWhile_ne_quote hafter']
  dsimp only
  rw [List.reverse_reverse, List.reverse_reverse]

theorem directionOf_congr {marks marks' : List Char} (hin : '<' ∈ marks ↔ '<' ∈ marks')
    (hout : '>' ∈ marks ↔ '>' ∈ marks') : directionOf marks = directionOf marks' := by
  unfold directionOf
  simp only [hin, hout]

/-- **The step of a text with quotes** has the name between them, as it stands, and the direction
of the marks around them. -/
theorem parse_quoted {before after : List Char} (hbefore : quote ∉ before)
    (hafter : quote ∉ after) (name : List Char) :
    parse (String.ofList (before ++ quote :: (name ++ quote :: after)))
      = ⟨typeOf name, directionOf (before ++ after)⟩ := by
  have hquote : ¬ Chars.isBlank quote := by decide
  have htrim : Chars.trim (before ++ quote :: (name ++ quote :: after))
      = before.dropWhile Chars.isBlank
          ++ quote :: (name ++ quote :: after.rdropWhile Chars.isBlank) := by
    rw [Chars.trim_append_cons hquote, Chars.rdropWhile_append_cons hquote]
  have hbefore' : quote ∉ before.dropWhile Chars.isBlank := by
    rwa [Chars.mem_dropWhile_iff hquote]
  have hafter' : quote ∉ after.rdropWhile Chars.isBlank := by
    rwa [Chars.mem_rdropWhile_iff hquote]
  -- The marks are no blanks, so trimming leaves them.
  have hmark : ∀ mark : Char, ¬ Chars.isBlank mark →
      (mark ∈ before.dropWhile Chars.isBlank ++ after.rdropWhile Chars.isBlank ↔
        mark ∈ before ++ after) := by
    intro mark hmark
    rw [List.mem_append, List.mem_append, Chars.mem_dropWhile_iff hmark,
      Chars.mem_rdropWhile_iff hmark]
  rw [parse, String.toList_ofList, htrim, unquote?_eq hbefore' hafter']
  exact congrArg (EdgeStep.mk _)
    (directionOf_congr (hmark '<' (by decide)) (hmark '>' (by decide)))

/-! ### The names of an edge filter -/

theorem mem_of_mem_unquote? {cs name marks : List Char} (h : unquote? cs = some (name, marks))
    {c : Char} (hc : c ∈ name) : c ∈ cs := by
  unfold unquote? at h
  split at h
  · cases h
  · next hd tail htail =>
    split at h
    · cases h
    · next hd' inner hinner =>
      cases h
      have hcinner : c ∈ tail.reverse.dropWhile (· ≠ quote) := by
        rw [hinner]
        exact List.mem_cons_of_mem _ (List.mem_reverse.mp hc)
      have hctail : c ∈ tail :=
        List.mem_reverse.mp ((List.dropWhile_sublist _).subset hcinner)
      refine (List.dropWhile_sublist fun x => decide (x ≠ quote)).subset ?_
      rw [htail]
      exact List.mem_cons_of_mem _ hctail

/-- The characters of a name come from the text of its step. -/
theorem mem_of_mem_edgeType {s name : String} (h : (parse s).edgeType = some name) {c : Char}
    (hc : c ∈ name.toList) : c ∈ s.toList := by
  have htype : ∀ cs : List Char, typeOf cs = some name → c ∈ cs := by
    intro cs hcs
    unfold typeOf at hcs
    split_ifs at hcs
    rw [← Option.some.inj hcs, String.toList_ofList] at hc
    exact hc
  have hcs : c ∈ Chars.trim s.toList := by
    rw [parse] at h
    rcases hunquote : unquote? (Chars.trim s.toList) with _ | ⟨inner, marks⟩
    · rw [hunquote] at h
      dsimp only at h
      have hbare : c ∈ bareName (Chars.trim s.toList) := htype _ h
      rw [bareName] at hbare
      exact List.filter_sublist.subset (Chars.mem_of_mem_trim hbare)
    · rw [hunquote] at h
      dsimp only at h
      exact mem_of_mem_unquote? hunquote (htype inner h)
  exact Chars.mem_of_mem_trim hcs

end EdgeStep

/-- No step of a selector has a name with a bar, and its names come from the text. -/
theorem Selector.mem_of_mem_steps {position : String} {st : EdgeStep}
    (hst : st ∈ (parse position).steps) {name : String} (hname : st.edgeType = some name) :
    '|' ∉ name.toList ∧ ∀ c ∈ name.toList, c ∈ position.toList := by
  have hcases : st = .wildcard ∨ ∃ a ∈ Text.split '|' position, EdgeStep.parse a = st := by
    unfold parse at hst
    rcases hsteps : ((Text.split '|' position).filter (!Text.isBlank ·)).map EdgeStep.parse
      with _ | ⟨first, rest⟩
    · rw [hsteps] at hst
      exact Or.inl (List.mem_singleton.mp hst)
    · rw [steps_ofSteps (by simp [hsteps])] at hst
      obtain ⟨a, ha, hparse⟩ := List.mem_map.mp hst
      exact Or.inr ⟨a, (List.mem_filter.mp ha).1, hparse⟩
  rcases hcases with rfl | ⟨a, ha, rfl⟩
  · cases hname
  · refine ⟨fun hbar => ?_, fun c hc => ?_⟩
    · exact Text.not_mem_of_mem_split ha (EdgeStep.mem_of_mem_edgeType hname hbar)
    · exact Text.mem_of_mem_split ha (EdgeStep.mem_of_mem_edgeType hname hc)

namespace Itinerary

/-- The steps at each position of the itinerary: the first position is for the first hop, unless
all of them repeat. -/
def Lists (i : Itinerary) (positions : List (List EdgeStep)) (beginAtStart : Bool) : Prop :=
  i.first.map (·.steps) = (if beginAtStart then none else positions.head?) ∧
    i.repeating.map (·.steps) = if beginAtStart then positions else positions.tail

instance (i : Itinerary) (positions : List (List EdgeStep)) (beginAtStart : Bool) :
    Decidable (i.Lists positions beginAtStart) :=
  inferInstanceAs (Decidable (_ ∧ _))

/-- An itinerary has one list of positions. -/
theorem Lists.unique {i : Itinerary} {l m : List (List EdgeStep)} {beginAtStart : Bool}
    (hl : i.Lists l beginAtStart) (hm : i.Lists m beginAtStart) : l = m := by
  obtain ⟨hlfirst, hlrest⟩ := hl
  obtain ⟨hmfirst, hmrest⟩ := hm
  rw [hlfirst] at hmfirst
  rw [hlrest] at hmrest
  cases beginAtStart with
  | true => exact hmrest
  | false =>
    simp only [Bool.false_eq_true, if_false] at hmfirst hmrest
    rcases l with _ | ⟨a, l⟩ <;> rcases m with _ | ⟨b, m⟩
    · rfl
    · cases hmfirst
    · cases hmfirst
    · rw [Option.some.inj hmfirst, List.tail_cons.symm.trans hmrest, List.tail_cons]

theorem lists_ofPositions {pieces : List String} (hne : pieces ≠ []) (beginAtStart : Bool) :
    (ofPositions pieces beginAtStart).Lists (pieces.map fun p => (Selector.parse p).steps)
      beginAtStart := by
  obtain ⟨first, rest, rfl⟩ := List.exists_cons_of_ne_nil hne
  cases beginAtStart with
  | true => exact ⟨rfl, by simp [ofPositions, Function.comp_def]⟩
  | false => exact ⟨rfl, by simp [ofPositions, Function.comp_def]⟩

/-- The positions of a filter that is not blank are its pieces. -/
theorem lists_parse {filter : String} (h : Text.isBlank filter = false) (beginAtStart : Bool) :
    (parse (some filter) beginAtStart).Lists
      ((Text.split ',' filter).map fun p => (Selector.parse p).steps) beginAtStart := by
  rw [parse, h]
  exact lists_ofPositions (Text.split_ne_nil _ _) beginAtStart

/-- **No step of an edge filter has a name with a comma or a bar.** -/
theorem not_mem_of_lists_parse {filter : String} (h : Text.isBlank filter = false)
    {beginAtStart : Bool} {positions : List (List EdgeStep)}
    (hlists : (parse (some filter) beginAtStart).Lists positions beginAtStart)
    {p : List EdgeStep} (hp : p ∈ positions) {st : EdgeStep} (hst : st ∈ p) {name : String}
    (hname : st.edgeType = some name) : ',' ∉ name.toList ∧ '|' ∉ name.toList := by
  rw [hlists.unique (lists_parse h beginAtStart)] at hp
  obtain ⟨piece, hpiece, rfl⟩ := List.mem_map.mp hp
  obtain ⟨hbar, hmem⟩ := Selector.mem_of_mem_steps hst hname
  exact ⟨fun hcomma => Text.not_mem_of_mem_split hpiece (hmem _ hcomma), hbar⟩

end Itinerary

/-! ### Steps written with quotes -/

/-- The mark of the direction before a name. -/
def Direction.markBefore : Direction → List Char
  | .incoming => ['<']
  | .outgoing | .both => []

/-- The mark of the direction after a name. -/
def Direction.markAfter : Direction → List Char
  | .outgoing => ['>']
  | .incoming | .both => []

theorem Direction.not_mem_marks {c : Char} (hin : c ≠ '<') (hout : c ≠ '>') (d : Direction) :
    c ∉ d.markBefore ∧ c ∉ d.markAfter := by
  rcases d with _ | _ | _ <;> simp [markBefore, markAfter, hin, hout]

/-- The marks of a direction ask for it. -/
theorem EdgeStep.directionOf_marks (d : Direction) :
    directionOf (d.markBefore ++ d.markAfter) = d := by
  cases d <;> decide

/-- An edge type that can stand between quotes, and a direction. -/
structure NamedStep where
  name : String
  direction : Direction
  name_ne : name ≠ ""
  quote_not_mem : EdgeStep.quote ∉ name.toList

namespace NamedStep

/-- The step that is meant. -/
def toStep (s : NamedStep) : EdgeStep := ⟨some s.name, s.direction⟩

/-- The step in filter notation, its name between quotes. -/
def render (s : NamedStep) : String :=
  .ofList (s.direction.markBefore ++
    EdgeStep.quote :: (s.name.toList ++ EdgeStep.quote :: s.direction.markAfter))

/-- Positions in filter notation. -/
def renderAll (positions : List (List NamedStep)) : String :=
  Text.join ',' (positions.map fun steps => Text.join '|' (steps.map render))

/-- **A step written with quotes is read back**, whatever its name. -/
theorem parse_render (s : NamedStep) : EdgeStep.parse s.render = s.toStep := by
  obtain ⟨hbefore, hafter⟩ : EdgeStep.quote ∉ s.direction.markBefore ∧
      EdgeStep.quote ∉ s.direction.markAfter :=
    s.direction.not_mem_marks (by decide) (by decide)
  have htype : EdgeStep.typeOf s.name.toList = some s.name := by
    have hempty : ¬ s.name.toList.isEmpty := by
      simpa using s.name_ne
    rw [EdgeStep.typeOf, if_neg hempty, String.ofList_toList]
  rw [render, EdgeStep.parse_quoted hbefore hafter, htype, EdgeStep.directionOf_marks, toStep]

/-- What is written of a step is its name, the quotes and the marks. -/
theorem not_mem_render {s : NamedStep} {c : Char} (hname : c ∉ s.name.toList)
    (hmarks : c ∉ [EdgeStep.quote, '<', '>']) : c ∉ s.render.toList := by
  simp only [List.mem_cons, List.not_mem_nil, or_false, not_or] at hmarks
  obtain ⟨hquote, hin, hout⟩ := hmarks
  obtain ⟨hbefore, hafter⟩ := s.direction.not_mem_marks hin hout
  simp only [render, String.toList_ofList, List.mem_append, List.mem_cons, not_or]
  exact ⟨hbefore, hquote, hname, hquote, hafter⟩

theorem quote_mem_render (s : NamedStep) : EdgeStep.quote ∈ s.render.toList := by
  simp [render]

theorem isBlank_of_quote_mem {text : String} (h : EdgeStep.quote ∈ text.toList) :
    Text.isBlank text = false := by
  rw [← Bool.not_eq_true, Text.isBlank, List.all_eq_true]
  exact fun hall => absurd (hall _ h) (by decide)

/-- **The steps of a position are read back** if no name holds a bar. -/
theorem steps_parse_join {steps : List NamedStep} (hne : steps ≠ [])
    (hbar : ∀ s ∈ steps, '|' ∉ s.name.toList) :
    (Selector.parse (Text.join '|' (steps.map render))).steps = steps.map toStep := by
  have hpieces : ∀ piece ∈ steps.map render, '|' ∉ piece.toList := by
    intro piece hpiece hmem
    obtain ⟨s, hs, rfl⟩ := List.mem_map.mp hpiece
    exact not_mem_render (hbar s hs) (by decide) hmem
  have hfilter : (steps.map render).filter (!Text.isBlank ·) = steps.map render := by
    refine List.filter_eq_self.mpr fun piece hpiece => ?_
    obtain ⟨s, hs, rfl⟩ := List.mem_map.mp hpiece
    rw [isBlank_of_quote_mem s.quote_mem_render]
    rfl
  have hsteps : (steps.map render).map EdgeStep.parse = steps.map toStep := by
    rw [List.map_map]
    refine List.map_congr_left fun s _ => ?_
    rw [Function.comp_apply, parse_render]
  rw [Selector.parse, Text.split_join (by simpa using hne) hpieces, hfilter, hsteps,
    Selector.steps_ofSteps (by simpa using hne)]

end NamedStep

section RenderAll

variable {positions : List (List NamedStep)}

theorem isBlank_renderAll (hne : positions ≠ []) (hsteps : ∀ p ∈ positions, p ≠ []) :
    Text.isBlank (NamedStep.renderAll positions) = false := by
  obtain ⟨p, rest, rfl⟩ := List.exists_cons_of_ne_nil hne
  obtain ⟨s, others, rfl⟩ := List.exists_cons_of_ne_nil (hsteps p (by simp))
  refine NamedStep.isBlank_of_quote_mem ?_
  have hposition : EdgeStep.quote ∈ (Text.join '|' ((s :: others).map NamedStep.render)).toList :=
    Text.mem_join_of_mem (List.mem_cons_self ..) s.quote_mem_render
  exact Text.mem_join_of_mem (List.mem_cons_self ..) hposition

/-- **Steps written with quotes are read back** just if no name holds a comma or a bar: the first
position is for the first hop, unless the filter begins at the start. -/
theorem parse_renderAll_iff (hne : positions ≠ []) (hsteps : ∀ p ∈ positions, p ≠ [])
    (beginAtStart : Bool) :
    (Itinerary.parse (some (NamedStep.renderAll positions)) beginAtStart).Lists
        (positions.map (·.map NamedStep.toStep)) beginAtStart ↔
      ∀ p ∈ positions, ∀ s ∈ p, ',' ∉ s.name.toList ∧ '|' ∉ s.name.toList := by
  have hblank := isBlank_renderAll hne hsteps
  constructor
  · intro hlists p hp s hs
    exact Itinerary.not_mem_of_lists_parse hblank hlists (List.mem_map_of_mem hp)
      (List.mem_map_of_mem hs) rfl
  · intro hnames
    have hcomma : ∀ piece ∈ positions.map fun p => Text.join '|' (p.map NamedStep.render),
        ',' ∉ piece.toList := by
      intro piece hpiece hmem
      obtain ⟨p, hp, rfl⟩ := List.mem_map.mp hpiece
      obtain hbar | ⟨text, htext, hmem⟩ := Text.mem_join_cases hmem
      · exact absurd hbar (by decide)
      · obtain ⟨s, hs, rfl⟩ := List.mem_map.mp htext
        exact NamedStep.not_mem_render (hnames p hp s hs).1 (by decide) hmem
    have hlists := Itinerary.lists_parse hblank beginAtStart
    rw [NamedStep.renderAll, Text.split_join (by simpa using hne) hcomma, List.map_map] at hlists
    have hpositions : positions.map ((fun p => (Selector.parse p).steps) ∘
        fun p => Text.join '|' (p.map NamedStep.render))
        = positions.map (·.map NamedStep.toStep) := by
      refine List.map_congr_left fun p hp => ?_
      exact NamedStep.steps_parse_join (hsteps p hp) fun s hs => (hnames p hp s hs).2
    rw [hpositions] at hlists
    exact hlists

end RenderAll

/-- Names full of marks, colons and blanks come back. -/
theorem parse_renderAll_marks :
    (Itinerary.parse (some "\x60HAS:<PART>\x60>|<\x60 A B \x60,\x60*\x60") false).Lists
      [[⟨some "HAS:<PART>", .outgoing⟩, ⟨some " A B ", .incoming⟩], [⟨some "*", .both⟩]] false := by
  have htext : "\x60HAS:<PART>\x60>|<\x60 A B \x60,\x60*\x60" = NamedStep.renderAll
      [[⟨"HAS:<PART>", .outgoing, by decide, by decide⟩,
          ⟨" A B ", .incoming, by decide, by decide⟩],
        [⟨"*", .both, by decide, by decide⟩]] := by decide
  rw [htext]
  exact (parse_renderAll_iff (by simp) (by simp) false).mpr (by decide)

/-- A comma cuts a name in two, quotes or not: what is left of each half keeps its quote. -/
theorem parse_renderAll_comma :
    NamedStep.renderAll [[⟨"A,B", .both, by decide, by decide⟩]] = "\x60A,B\x60" ∧
      ¬ (Itinerary.parse (some "\x60A,B\x60") true).Lists [[⟨some "A,B", .both⟩]] true ∧
      (Itinerary.parse (some "\x60A,B\x60") true).Lists
        [[⟨some "\x60A", .both⟩], [⟨some "B\x60", .both⟩]] true := by
  decide

end WalkFilter
