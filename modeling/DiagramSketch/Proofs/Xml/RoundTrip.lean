import DiagramSketch.Proofs.Results
import DiagramSketch.Proofs.Xml.Descendants
import DiagramSketch.Proofs.Xml.Scanning

/-!
# Documents are read back

Reading what is written for an element gives the element back: `read?_written`.  The only thing
that is lost is the difference between an empty text and none.  The written form is first shown to
be read as the tokens of the element, and the tokens then to be put together to it.
-/

namespace DiagramSketch.Xml

/-- A text that is there only if it has a character. -/
def proper (text : Option Text) : Option Text :=
  text.filter fun content => !content.isEmpty

/-- The token for a text, if it has a character. -/
def contentTokens (text : Option Text) : List Token :=
  (proper text).toList.map .content

mutual

/-- The tokens of an element and the text after it. -/
def Element.tokens : Element → List Token
  | ⟨tag, attributes, text, children, tail⟩ =>
      (if (proper text).isNone && children.isEmpty then [.empty tag attributes]
        else .opening tag attributes ::
          (contentTokens text ++ (Element.tokensAll children ++ [.closing tag])))
        ++ contentTokens tail

/-- The tokens of elements, one after the other. -/
def Element.tokensAll : List Element → List Token
  | [] => []
  | element :: elements => element.tokens ++ Element.tokensAll elements

end

mutual

/-- The element without empty texts. -/
def Element.filled : Element → Element
  | ⟨tag, attributes, text, children, tail⟩ =>
      ⟨tag, attributes, proper text, Element.filledAll children, proper tail⟩

/-- The elements without empty texts. -/
def Element.filledAll : List Element → List Element
  | [] => []
  | element :: elements => element.filled :: Element.filledAll elements

end

theorem proper_eq_none_iff {text : Option Text} : proper text = none ↔ text.getD [] = [] := by
  cases text with
  | none => simp [proper]
  | some content => cases content <;> simp [proper, Option.filter]

theorem proper_eq_some {text : Option Text} {content : Text} (found : proper text = some content) :
    text = some content ∧ content ≠ [] := by
  rw [proper, Option.filter_eq_some_iff] at found
  refine ⟨found.1, ?_⟩
  rintro rfl
  exact absurd found.2 (by decide)

theorem getD_proper (text : Option Text) : (proper text).getD [] = text.getD [] := by
  cases found : proper text with
  | none => exact (proper_eq_none_iff.mp found).symm
  | some content => rw [(proper_eq_some found).1]

/-! ## The tokens of what is written -/

theorem tokens?_of_token? {text rest : Text} {token : Token}
    (read : token? text = some (token, rest)) : tokens? text = (tokens? rest).map (token :: ·) := by
  have nonempty : ¬ text.isEmpty = true := by
    intro empty
    rw [List.isEmpty_iff] at empty
    rw [empty] at read
    cases read
  rw [tokens?, if_neg nonempty]
  split
  · next unread =>
      rw [read] at unread
      cases unread
  · next found =>
      rw [read] at found
      cases found
      rfl

/-- A text between tags is read as its token, or as nothing when it is empty. -/
theorem tokens?_escaped (text : Option Text) {rest : Text} (begins : BeginsTag rest) :
    tokens? (escaped (text.getD []) ++ rest) =
      (tokens? rest).map (contentTokens text ++ ·) := by
  cases found : proper text with
  | none =>
      rw [proper_eq_none_iff.mp found, contentTokens, found]
      exact (congrFun Option.map_id (tokens? rest)).symm
  | some content =>
      obtain ⟨rfl, nonempty⟩ := proper_eq_some found
      rw [contentTokens, found]
      exact tokens?_of_token? (token?_content nonempty begins)

theorem Element.written_eq (element : Element) :
    element.written = element.head ++
      (closed element.tag (escaped (element.text.getD []) ++ Element.writtenAll element.children)
        ++ escaped (element.tail.getD [])) := by
  cases element
  simp [Element.written, Element.head]

theorem Element.beginsTag_writtenAll (elements : List Element) {rest : Text}
    (begins : BeginsTag rest) : BeginsTag (Element.writtenAll elements ++ rest) := by
  cases elements with
  | nil => exact begins
  | cons element elements =>
      intro character member
      rw [Element.writtenAll, element.written_eq] at member
      obtain rfl : '<' = character := by simpa [Element.head] using member
      rfl

theorem Element.inside_eq_nil_iff (text : Option Text) (children : List Element) :
    escaped (text.getD []) ++ Element.writtenAll children = [] ↔
      proper text = none ∧ children = [] := by
  rw [List.append_eq_nil_iff, proper_eq_none_iff]
  refine and_congr ⟨?_, ?_⟩ ⟨?_, ?_⟩
  · intro empty
    have read := resolved?_escaped (text.getD [])
    rw [empty] at read
    exact (Option.some.inj read).symm
  · intro empty
    rw [empty]
    rfl
  · intro empty
    cases children with
    | nil => rfl
    | cons element elements =>
        rw [Element.writtenAll, element.written_eq] at empty
        cases empty
  · rintro rfl
    rfl

mutual

theorem Element.tokens?_written : ∀ (element : Element) (rest : Text),
    (∀ part ∈ element.descendants, part.IsNamed) → BeginsTag rest →
    tokens? (element.written ++ rest) = (tokens? rest).map (element.tokens ++ ·)
  | ⟨tag, attributes, text, children, tail⟩, rest, named, begins => by
      have own : Element.IsNamed ⟨tag, attributes, text, children, tail⟩ :=
        named _ (Element.mem_descendants_self _)
      have below : ∀ part ∈ Element.descendantsAll children, part.IsNamed := by
        intro part member
        exact named part (List.mem_cons_of_mem _ member)
      have after := tokens?_escaped tail begins
      rw [Element.written_eq, Element.tokens, List.append_assoc, List.append_assoc, closed]
      by_cases empty : proper text = none ∧ children = []
      · have inside : (escaped (text.getD []) ++ Element.writtenAll children).isEmpty = true := by
          rw [List.isEmpty_iff, Element.inside_eq_nil_iff]
          exact empty
        have bare : ((proper text).isNone && children.isEmpty) = true := by
          rw [Bool.and_eq_true, Option.isNone_iff_eq_none, List.isEmpty_iff]
          exact empty
        rw [if_pos inside, if_pos bare]
        have only := tokens?_of_token? (token?_empty own (escaped (tail.getD []) ++ rest))
        rw [after, Option.map_map] at only
        exact only
      · have inside : ¬ (escaped (text.getD []) ++ Element.writtenAll children).isEmpty = true := by
          rw [List.isEmpty_iff, Element.inside_eq_nil_iff]
          exact empty
        have full : ¬ ((proper text).isNone && children.isEmpty) = true := by
          rw [Bool.and_eq_true, Option.isNone_iff_eq_none, List.isEmpty_iff]
          exact empty
        rw [if_neg inside, if_neg full]
        have close := tokens?_of_token? (token?_closing own.tag (escaped (tail.getD []) ++ rest))
        have closing :
            BeginsTag ('<' :: '/' :: (tag ++ '>' :: (escaped (tail.getD []) ++ rest))) := by
          intro character member
          exact (Option.some.inj member).symm
        have inner := Element.tokensAll?_written children _ below closing
        have label := tokens?_escaped text (Element.beginsTag_writtenAll children closing)
        have start := tokens?_of_token? (token?_opening own
          (escaped (text.getD []) ++ (Element.writtenAll children
            ++ '<' :: '/' :: (tag ++ '>' :: (escaped (tail.getD []) ++ rest)))))
        rw [label, inner, close, after] at start
        simpa [Option.map_map, Function.comp_def] using start

theorem Element.tokensAll?_written : ∀ (elements : List Element) (rest : Text),
    (∀ part ∈ Element.descendantsAll elements, part.IsNamed) → BeginsTag rest →
    tokens? (Element.writtenAll elements ++ rest) =
      (tokens? rest).map (Element.tokensAll elements ++ ·)
  | [], rest, _, _ => (congrFun Option.map_id (tokens? rest)).symm
  | element :: elements, rest, named, begins => by
      rw [Element.descendantsAll] at named
      have others := Element.tokensAll?_written elements rest
        (fun part member => named part (List.mem_append_right _ member)) begins
      have first := Element.tokens?_written element _
        (fun part member => named part (List.mem_append_left _ member))
        (Element.beginsTag_writtenAll elements begins)
      rw [others] at first
      simpa [Element.writtenAll, Element.tokensAll, Option.map_map, Function.comp_def] using first

end

/-! ## Putting the tokens together -/

/-- Takes tokens into account. -/
def Progress.followAll (progress : Progress) (tokens : List Token) : Option Progress :=
  tokens.foldlM follow progress

namespace Progress

theorem followAll_append {progress next : Progress} {tokens : List Token}
    (followed : progress.followAll tokens = some next) (others : List Token) :
    progress.followAll (tokens ++ others) = next.followAll others := by
  rw [followAll, List.foldlM_append]
  exact congrArg (·.bind fun reached => others.foldlM follow reached) followed

theorem followAll_text (tag : Text) (attributes : List Attribute) (outer : List OpenElement)
    (text : Option Text) :
    (within ({ tag, attributes, text := none, children := [] } :: outer)).followAll
        (contentTokens text) =
      some (within ({ tag, attributes, text := proper text, children := [] } :: outer)) := by
  unfold contentTokens
  cases proper text with
  | none => rfl
  | some content => rfl

theorem followAll_tail (current : OpenElement) (outer : List OpenElement) (child : Element)
    (tail : Option Text) :
    (within (current.addChild { child with tail := none } :: outer)).followAll
        (contentTokens tail) =
      some (within (current.addChild { child with tail := proper tail } :: outer)) := by
  unfold contentTokens
  cases proper tail with
  | none => rfl
  | some content => rfl

end Progress

/-- The element without what is written after its end. -/
def Element.alone (element : Element) : Element :=
  { element with tail := none }

/-- The tokens of an element without those for the text after it. -/
def Element.ownTokens (element : Element) : List Token :=
  element.alone.tokens

theorem Element.tokens_eq (element : Element) :
    element.tokens = element.ownTokens ++ contentTokens element.tail := by
  cases element
  simp [Element.tokens, Element.ownTokens, Element.alone, contentTokens, proper]

mutual

theorem Element.followAll_ownTokens : ∀ (element : Element) (stack : List OpenElement),
    (Progress.within stack).followAll element.ownTokens =
      some (Progress.finish element.filled.alone stack)
  | ⟨tag, attributes, text, children, tail⟩, stack => by
      have noTail : contentTokens none = [] := rfl
      rw [Element.ownTokens, Element.alone, Element.tokens, noTail, List.append_nil]
      split
      · next bare =>
          obtain ⟨noText, noChild⟩ : proper text = none ∧ children = [] := by
            simpa [Option.isNone_iff_eq_none, List.isEmpty_iff] using bare
          rw [Element.filled, noText, noChild]
          rfl
      · have opened : (Progress.within stack).followAll [.opening tag attributes] =
            some (.within ({ tag, attributes, text := none, children := [] } :: stack)) := rfl
        have label := Progress.followAll_text tag attributes stack text
        have inner := Element.followAll_tokensAll children
          { tag, attributes, text := proper text, children := [] } stack
        have steps := Progress.followAll_append opened
          (contentTokens text ++ (Element.tokensAll children ++ [.closing tag]))
        rw [Progress.followAll_append label, Progress.followAll_append inner] at steps
        rw [Element.filled]
        refine steps.trans ?_
        simp [Progress.followAll, Progress.follow, OpenElement.closed, Element.alone]

theorem Element.followAll_tokensAll : ∀ (elements : List Element) (current : OpenElement)
    (outer : List OpenElement),
    (Progress.within (current :: outer)).followAll (Element.tokensAll elements) =
      some (.within ({ current with
        children := (Element.filledAll elements).reverse ++ current.children } :: outer))
  | [], current, outer => rfl
  | element :: elements, current, outer => by
      have own := Element.followAll_ownTokens element (current :: outer)
      have tail := Progress.followAll_tail current outer element.filled element.tail
      have both : (Progress.within (current :: outer)).followAll element.tokens =
          some (.within (current.addChild element.filled :: outer)) := by
        rw [Element.tokens_eq, Progress.followAll_append own]
        refine tail.trans ?_
        cases element
        rfl
      have others := Element.followAll_tokensAll elements (current.addChild element.filled) outer
      rw [Element.tokensAll, Progress.followAll_append both, others]
      simp [OpenElement.addChild, Element.filledAll]

end

/-- A document is read back as the element that it was written for. -/
theorem Element.read?_written {element : Element}
    (named : ∀ part ∈ element.descendants, part.IsNamed) (last : element.tail = none) :
    read? element.written = some element.filled := by
  have ended : tokens? [] = some [] := by
    rw [tokens?]
    rfl
  have read := element.tokens?_written [] named (by simp [BeginsTag])
  rw [List.append_nil, ended] at read
  have whole : element.tokens ++ [] = element.ownTokens := by
    rw [List.append_nil, element.tokens_eq, last]
    exact List.append_nil _
  have together := element.followAll_ownTokens []
  have complete : element.filled.alone = element.filled := by
    cases element
    obtain rfl : _ = none := last
    rfl
  rw [complete] at together
  rw [← whole] at together
  unfold read?
  rw [read]
  exact Option.bind_eq_some_iff.mpr ⟨_, rfl, Option.bind_eq_some_iff.mpr ⟨_, together, rfl⟩⟩

end DiagramSketch.Xml
