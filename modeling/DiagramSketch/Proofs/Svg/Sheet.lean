import DiagramSketch.Proofs.Results
import DiagramSketch.Proofs.Xml.Indentation
import DiagramSketch.Svg.Sheet

/-!
# Printing leaves no trace

Printing an element indents it in its place, and the sheet is built on from there.  Two sheets that
differ in indentation only stay so whatever is added to both and whatever is printed from either of
them, and a whole document is printed alike from both.
-/

namespace DiagramSketch.Svg

open Xml (Element)

/-- Whether a step adds an element. -/
def Step.builds : Step → Bool
  | .document .. | .group .. | .shape .. | .line .. | .label .. | .polygon .. => true
  | .print _ => false

/-! ## Parts of an element -/

theorem alterAt_id (path : List Nat) (element : Element) : alterAt id path element = element := by
  induction path generalizing element with
  | nil => rfl
  | cons index path induction =>
      have unchanged : alterAt id path = id := funext induction
      rw [alterAt, unchanged, List.modify_id]
      cases element
      rfl

theorem tail_alterAt {change : Element → Element} (keeps : ∀ element, (change element).tail =
    element.tail) (path : List Nat) (element : Element) :
    (alterAt change path element).tail = element.tail := by
  cases path with
  | nil => exact keeps element
  | cons index path => rfl

theorem isEmpty_modify {α : Type} (entries : List α) (index : Nat) (change : α → α) :
    (entries.modify index change).isEmpty = entries.isEmpty := by
  rw [Bool.eq_iff_iff, List.isEmpty_iff, List.isEmpty_iff, List.modify_eq_nil_iff]

/-- Lists that look alike do so after changes that agree in this. -/
theorem map_modify_congr {α β : Type} {look : α → β} {change otherChange : α → α}
    (each : ∀ entry other, look entry = look other → look (change entry) = look (otherChange other))
    {entries others : List α} (same : entries.map look = others.map look) (index : Nat) :
    (entries.modify index change).map look = (others.modify index otherChange).map look := by
  apply List.ext_getElem?
  intro number
  have beside := congrArg (·[number]?) same
  simp only [List.getElem?_map, List.getElem?_modify] at beside ⊢
  cases first : entries[number]? with
  | none =>
      cases second : others[number]? with
      | none => rfl
      | some other =>
          rw [first, second] at beside
          cases beside
  | some entry =>
      cases second : others[number]? with
      | none =>
          rw [first, second] at beside
          cases beside
      | some other =>
          rw [first, second] at beside
          have alike := Option.some.inj beside
          by_cases here : index = number
          · simp [here, each entry other alike]
          · simp [here, alike]

/-- Changes that agree apart from indentation can be made to a part. -/
theorem unindented_alterAt {change otherChange : Element → Element}
    (each : ∀ part other : Element, part.unindented = other.unindented →
      (change part).unindented = (otherChange other).unindented) (path : List Nat)
    {element other : Element} (same : element.unindented = other.unindented) :
    (alterAt change path element).unindented = (alterAt otherChange path other).unindented := by
  induction path generalizing element other with
  | nil => exact each element other same
  | cons index path induction =>
      obtain ⟨tag, attributes, text, children⟩ := Element.unindented_eq_iff.mp same
      apply Element.unindented_eq_iff.mpr
      simp only [alterAt, isEmpty_modify]
      exact ⟨tag, attributes, text, map_modify_congr (fun _ _ => induction) children index⟩

/-- The parts at a path are there in both elements or in none. -/
theorem map_unindented_descendant? (path : List Nat) {element other : Element}
    (same : element.unindented = other.unindented) :
    (descendant? path element).map Element.unindented =
      (descendant? path other).map Element.unindented := by
  induction path generalizing element other with
  | nil => exact congrArg some same
  | cons index path induction =>
      have beside := congrArg (·[index]?) (Element.unindented_eq_iff.mp same).2.2.2
      simp only [List.getElem?_map] at beside
      rw [descendant?, descendant?]
      cases first : element.children[index]? with
      | none =>
          rw [first] at beside
          rw [Option.map_eq_none_iff.mp beside.symm]
      | some part =>
          rw [first] at beside
          obtain ⟨otherPart, second, alike⟩ := Option.map_eq_some_iff.mp beside.symm
          rw [second]
          exact induction alike.symm

/-! ## Sheets -/

namespace Sheet

/-- Both sheets have the same elements at the same places, apart from indentation. -/
structure LooksLike (sheet other : Sheet) : Prop where
  places : sheet.places = other.places
  roots : sheet.roots.map Element.unindented = other.roots.map Element.unindented

/-- All places are on one of the documents, and nothing is written behind these. -/
structure IsSound (sheet : Sheet) : Prop where
  housed : ∀ place ∈ sheet.places, place.root < sheet.roots.length
  bare : ∀ root ∈ sheet.roots, root.tail = none

/-- A document was added under the number. -/
def IsRoot (sheet : Sheet) (node : Nat) : Prop :=
  ∃ place ∈ sheet.places[node]?, place.path = []

variable {sheet other : Sheet} {element : Element} {place : Place}

theorem isSound_blank : blank.IsSound :=
  ⟨List.forall_mem_nil _, List.forall_mem_nil _⟩

theorem IsSound.alter (sound : sheet.IsSound) (place : Place) {change : Element → Element}
    (keeps : ∀ element, (change element).tail = element.tail) :
    (sheet.alter place change).IsSound := by
  constructor
  case housed =>
    intro other member
    rw [Sheet.alter, List.length_modify]
    exact sound.housed other member
  case bare =>
    intro root member
    obtain ⟨old, listed, rfl | rfl⟩ := exists_of_mem_modify member
    · exact sound.bare root listed
    · rw [tail_alterAt keeps]
      exact sound.bare old listed

theorem IsSound.addRoot (sound : sheet.IsSound) (bare : element.tail = none) :
    (sheet.addRoot element).IsSound := by
  constructor
  case housed =>
    have longer : (sheet.addRoot element).roots.length = sheet.roots.length + 1 :=
      List.length_append
    rw [longer]
    refine List.forall_mem_append.mpr ⟨fun place member => ?_, List.forall_mem_singleton.mpr ?_⟩
    · exact Nat.lt_succ_of_lt (sound.housed place member)
    · exact Nat.lt_succ_self _
  case bare => exact List.forall_mem_append.mpr ⟨sound.bare, List.forall_mem_singleton.mpr bare⟩

theorem IsSound.addChild (sound : sheet.IsSound) (housed : place.root < sheet.roots.length)
    (parent element : Element) : (sheet.addChild place parent element).IsSound := by
  have altered : (sheet.alter place (·.add element)).IsSound := sound.alter place fun _ => rfl
  constructor
  case housed =>
    refine List.forall_mem_append.mpr ⟨altered.housed, List.forall_mem_singleton.mpr ?_⟩
    exact lt_of_lt_of_eq housed (List.length_modify ..).symm
  case bare => exact altered.bare

theorem LooksLike.refl (sheet : Sheet) : sheet.LooksLike sheet :=
  ⟨rfl, rfl⟩

theorem LooksLike.alter (alike : sheet.LooksLike other) (place : Place)
    {change otherChange : Element → Element}
    (each : ∀ part otherPart : Element, part.unindented = otherPart.unindented →
      (change part).unindented = (otherChange otherPart).unindented) :
    (sheet.alter place change).LooksLike (other.alter place otherChange) where
  places := alike.places
  roots := map_modify_congr (fun _ _ => unindented_alterAt each place.path) alike.roots place.root

theorem LooksLike.addRoot (alike : sheet.LooksLike other) (element : Element) :
    (sheet.addRoot element).LooksLike (other.addRoot element) := by
  have count : sheet.roots.length = other.roots.length := by
    rw [← List.length_map Element.unindented, alike.roots, List.length_map]
  constructor
  case places => rw [Sheet.addRoot, Sheet.addRoot, alike.places, count]
  case roots => rw [Sheet.addRoot, Sheet.addRoot, List.map_append, List.map_append, alike.roots]

theorem LooksLike.addChild (alike : sheet.LooksLike other) (place : Place)
    {parent otherParent : Element} (parents : parent.unindented = otherParent.unindented)
    (element : Element) :
    (sheet.addChild place parent element).LooksLike (other.addChild place otherParent element) := by
  have altered : (sheet.alter place (·.add element)).LooksLike
      (other.alter place (·.add element)) :=
    alike.alter place fun _ _ same => Element.unindented_add same element
  have count : parent.children.length = otherParent.children.length := by
    rw [← List.length_map Element.unindented, (Element.unindented_eq_iff.mp parents).2.2.2,
      List.length_map]
  constructor
  case places => rw [Sheet.addChild, Sheet.addChild, alike.places, count]
  case roots => exact altered.roots

theorem find?_eq_some_iff {reference : Reference} :
    sheet.find? reference = some (place, element) ↔ ∃ home root,
      sheet.places[reference.node]? = some home ∧
      place = { home with path := home.path ++ reference.path } ∧
      sheet.roots[place.root]? = some root ∧ descendant? place.path root = some element := by
  unfold Sheet.find?
  simp only [Option.bind_eq_bind, Option.bind_eq_some_iff, Option.pure_def, Option.some.injEq,
    Prod.mk.injEq]
  constructor
  · rintro ⟨home, listed, root, standing, _, within, rfl, rfl⟩
    exact ⟨home, root, listed, rfl, standing, within⟩
  · rintro ⟨home, root, listed, rfl, standing, within⟩
    exact ⟨home, listed, root, standing, _, within, rfl, rfl⟩

theorem LooksLike.symm (alike : sheet.LooksLike other) : other.LooksLike sheet :=
  ⟨alike.places.symm, alike.roots.symm⟩

/-- What is referred to is found in both sheets, at one place. -/
theorem LooksLike.find?_eq_some (alike : sheet.LooksLike other) {reference : Reference}
    (found : sheet.find? reference = some (place, element)) : ∃ otherElement,
      other.find? reference = some (place, otherElement) ∧
        element.unindented = otherElement.unindented := by
  obtain ⟨home, root, listed, own, standing, within⟩ := find?_eq_some_iff.mp found
  have documents := congrArg (·[place.root]?) alike.roots
  simp only [List.getElem?_map, standing, Option.map_some] at documents
  obtain ⟨otherRoot, standingToo, roots⟩ := Option.map_eq_some_iff.mp documents.symm
  have parts := map_unindented_descendant? place.path roots.symm
  rw [within] at parts
  obtain ⟨otherElement, withinToo, same⟩ := Option.map_eq_some_iff.mp parts.symm
  refine ⟨otherElement, find?_eq_some_iff.mpr
    ⟨home, otherRoot, ?_, own, standingToo, withinToo⟩, same.symm⟩
  rw [← alike.places]
  exact listed

theorem LooksLike.find?_eq_none (alike : sheet.LooksLike other) {reference : Reference}
    (missing : sheet.find? reference = none) : other.find? reference = none := by
  cases found : other.find? reference with
  | none => rfl
  | some pair =>
      obtain ⟨element, foundToo, -⟩ := alike.symm.find?_eq_some found
      rw [missing] at foundToo
      cases foundToo

/-! ## Steps -/

theorem LooksLike.offerRoot (alike : sheet.LooksLike other) (made : Except Fault Element) :
    (sheet.offerRoot made).1 = (other.offerRoot made).1 ∧
      (sheet.offerRoot made).2.LooksLike (other.offerRoot made).2 := by
  cases made with
  | error fault => exact ⟨rfl, alike⟩
  | ok element => exact ⟨rfl, alike.addRoot element⟩

theorem LooksLike.offerChild (alike : sheet.LooksLike other) (parent : Reference)
    (made : Except Fault Element) :
    (sheet.offerChild parent made).1 = (other.offerChild parent made).1 ∧
      (sheet.offerChild parent made).2.LooksLike (other.offerChild parent made).2 := by
  unfold Sheet.offerChild
  cases found : sheet.find? parent with
  | none =>
      rw [alike.find?_eq_none found]
      exact ⟨rfl, alike⟩
  | some pair =>
      obtain ⟨place, element⟩ := pair
      obtain ⟨otherElement, foundToo, same⟩ := alike.find?_eq_some found
      rw [foundToo]
      cases made with
      | error fault => exact ⟨rfl, alike⟩
      | ok child => exact ⟨rfl, alike.addChild place same child⟩

/-- The same thing is added to both sheets. -/
theorem LooksLike.take (alike : sheet.LooksLike other) {step : Step} (builds : step.builds = true) :
    (sheet.take step).1 = (other.take step).1 ∧
      (sheet.take step).2.LooksLike (other.take step).2 := by
  cases step with
  | document width height markers => exact alike.offerRoot _
  | group parent className values => exact alike.offerChild parent _
  | shape parent tag values => exact alike.offerChild parent _
  | line parent startX startY endX endY style => exact alike.offerChild parent _
  | label parent x y content style => exact alike.offerChild parent _
  | polygon parent points values => exact alike.offerChild parent _
  | print target => cases builds

theorem alter_id (sheet : Sheet) (place : Place) : sheet.alter place id = sheet := by
  have unchanged : alterAt id place.path = id := funext (alterAt_id place.path)
  rw [Sheet.alter, unchanged, List.modify_id]

/-- Printing indents the element in its place. -/
theorem take_print_snd (sheet : Sheet) (target : Reference) :
    (sheet.take (.print target)).2 =
      match sheet.find? target with
      | none => sheet
      | some (place, _) => sheet.alter place (Element.indented 0) := by
  rw [Sheet.take]
  cases sheet.find? target <;> rfl

/-- Printing from one sheet makes no difference to the other. -/
theorem LooksLike.print (alike : sheet.LooksLike other) (target : Reference) :
    (sheet.take (.print target)).2.LooksLike other := by
  rw [take_print_snd]
  cases sheet.find? target with
  | none => exact alike
  | some pair =>
      obtain ⟨place, element⟩ := pair
      rw [← other.alter_id place]
      apply alike.alter place
      intro part otherPart same
      rw [Element.unindented_indented]
      exact same

theorem LooksLike.takeAll (alike : sheet.LooksLike other) (steps : List Step) :
    (sheet.takeAll steps).2.LooksLike (other.takeAll (steps.filter Step.builds)).2 := by
  induction steps generalizing sheet other with
  | nil => exact alike
  | cons step steps induction =>
      by_cases builds : step.builds = true
      · rw [List.filter_cons_of_pos builds]
        exact induction (alike.take builds).2
      · -- Only the first sheet takes the step, and both look alike as before.
        rw [List.filter_cons_of_neg builds]
        cases step with
        | print target => exact induction (alike.print target)
        | _ => exact absurd rfl builds

theorem tail_document {width height : Number} {markers : List Text}
    (made : document width height markers = .ok element) : element.tail = none := by
  unfold document at made
  split at made
  · cases made
  · obtain ⟨widthText, -, made⟩ := bind_eq_ok_iff.mp made
    obtain ⟨heightText, -, made⟩ := bind_eq_ok_iff.mp made
    obtain ⟨others, -, made⟩ := bind_eq_ok_iff.mp made
    cases made
    rfl

theorem IsSound.offerChild (sound : sheet.IsSound) (parent : Reference)
    (made : Except Fault Element) : (sheet.offerChild parent made).2.IsSound := by
  unfold Sheet.offerChild
  cases found : sheet.find? parent with
  | none => exact sound
  | some pair =>
      obtain ⟨place, element⟩ := pair
      obtain ⟨-, root, -, -, standing, -⟩ := find?_eq_some_iff.mp found
      have housed := (List.getElem?_eq_some_iff.mp standing).1
      cases made with
      | error fault => exact sound
      | ok child => exact sound.addChild housed element child

theorem IsSound.take (sound : sheet.IsSound) (step : Step) : (sheet.take step).2.IsSound := by
  cases step with
  | document width height markers =>
      rw [Sheet.take]
      cases made : Svg.document width height markers with
      | error fault => exact sound
      | ok element => exact sound.addRoot (tail_document made)
  | group parent className values => exact sound.offerChild parent _
  | shape parent tag values => exact sound.offerChild parent _
  | line parent startX startY endX endY style => exact sound.offerChild parent _
  | label parent x y content style => exact sound.offerChild parent _
  | polygon parent points values => exact sound.offerChild parent _
  | print target =>
      rw [take_print_snd]
      cases sheet.find? target with
      | none => exact sound
      | some pair =>
          apply sound.alter
          intro element
          cases element
          rfl

theorem IsSound.takeAll (sound : sheet.IsSound) (steps : List Step) :
    (sheet.takeAll steps).2.IsSound := by
  induction steps generalizing sheet with
  | nil => exact sound
  | cons step steps induction => exact induction (sound.take step)

/-! ## Whole documents -/

/-- A document is found under the number of its root. -/
theorem IsSound.exists_find? (sound : sheet.IsSound) {node : Nat} (isRoot : sheet.IsRoot node) :
    ∃ place root, sheet.find? { node } = some (place, root) ∧ root.tail = none := by
  obtain ⟨place, listed, top⟩ := isRoot
  have housed := sound.housed place (List.mem_of_getElem? listed)
  have standing := List.getElem?_eq_getElem housed
  refine ⟨place, _, find?_eq_some_iff.mpr ⟨place, _, listed, ?_, standing, ?_⟩,
    sound.bare _ (List.getElem_mem housed)⟩
  · rw [List.append_nil]
  · rw [top, descendant?]

theorem LooksLike.isRoot_iff (alike : sheet.LooksLike other) {node : Nat} :
    sheet.IsRoot node ↔ other.IsRoot node := by
  rw [IsRoot, IsRoot, alike.places]

/-- A document is printed alike from two sheets that look alike. -/
theorem LooksLike.print_eq (alike : sheet.LooksLike other) (sound : sheet.IsSound)
    (otherSound : other.IsSound) {node : Nat} (isRoot : sheet.IsRoot node) :
    (sheet.take (.print { node })).1 = (other.take (.print { node })).1 := by
  have otherRoot := alike.isRoot_iff.mp isRoot
  obtain ⟨place, root, found, bare⟩ := sound.exists_find? isRoot
  obtain ⟨otherPlace, otherElement, otherFound, otherBare⟩ := otherSound.exists_find? otherRoot
  obtain ⟨element, foundToo, same⟩ := alike.find?_eq_some found
  cases otherFound.symm.trans foundToo
  have printed : Svg.print root = Svg.print otherElement := by
    rw [Svg.print, Svg.print, Element.indented_congr same (bare.trans otherBare.symm)]
  rw [Sheet.take, Sheet.take, found, foundToo]
  dsimp only
  rw [printed]

theorem eq_unclosedBrace_of_print {fault : Fault} (failure : Svg.print element = .error fault) :
    fault = .unclosedBrace := by
  obtain unread | ⟨names, -, written⟩ := bind_eq_error_iff.mp failure
  · obtain ⟨name, -, unreadable⟩ := exists_of_mapM_eq_error unread
    unfold Xml.Name.read at unreadable
    split at unreadable
    · split at unreadable
      · cases unreadable
      · exact (Except.error.inj unreadable).symm
    · cases unreadable
  · cases written

/-- A document is always printed, unless a name in it opens a brace and closes none. -/
theorem IsSound.print_eq (sound : sheet.IsSound) {node : Nat} (isRoot : sheet.IsRoot node) :
    (∃ text, (sheet.take (.print { node })).1 = .printed text) ∨
      (sheet.take (.print { node })).1 = .failed .unclosedBrace := by
  obtain ⟨place, root, found, -⟩ := sound.exists_find? isRoot
  rw [Sheet.take, found]
  cases written : Svg.print root with
  | ok text => exact .inl ⟨text, by simp only [written]⟩
  | error fault =>
      rw [eq_unclosedBrace_of_print written] at written
      exact .inr (by simp only [written])

/-- A document is printed as if nothing had been printed before, whatever was printed of it and of
its parts, and printed once more it is the same. -/
theorem print_eq_print_unprinted (steps : List Step) {node : Nat}
    (isRoot : (blank.takeAll steps).2.IsRoot node) :
    let sheet := (blank.takeAll steps).2
    let unprinted := (blank.takeAll (steps.filter Step.builds)).2
    sheet.places = unprinted.places ∧
      (sheet.take (.print { node })).1 = (unprinted.take (.print { node })).1 ∧
      ((sheet.take (.print { node })).2.take (.print { node })).1 =
        (sheet.take (.print { node })).1 ∧
      ((∃ text, (sheet.take (.print { node })).1 = .printed text) ∨
        (sheet.take (.print { node })).1 = .failed .unclosedBrace) := by
  intro sheet unprinted
  have sound : sheet.IsSound := isSound_blank.takeAll steps
  have unprintedSound : unprinted.IsSound := isSound_blank.takeAll _
  have alike : sheet.LooksLike unprinted := (LooksLike.refl blank).takeAll steps
  have onceMore : (sheet.take (.print { node })).2.LooksLike sheet :=
    (LooksLike.refl sheet).print { node }
  refine ⟨alike.places, alike.print_eq sound unprintedSound isRoot, ?_, sound.print_eq isRoot⟩
  exact onceMore.print_eq (sound.take _) sound (onceMore.isRoot_iff.mpr isRoot)

/-- A label that is blank is printed before something is put into it, and so is what is around
it, and the definitions that came with the document. -/
theorem print_eq_print_unprinted_filled_label :
    let steps : List Step :=
      [.document (.whole 90) (.whole 40) [], .group { node := 0 } "actor" [],
        .label { node := 1 } (.whole 30) (.whole 20) "  " {}, .print { node := 2 },
        .print { node := 1 }, .print { node := 0, path := [0] },
        .shape { node := 2 } "tspan" [("dy", 5)], .print { node := 2 },
        .shape { node := 0, path := [0] } "style" [],
        .label { node := 1 } (.whole 45) (.whole 20) "User" {}]
    let sheet := (blank.takeAll steps).2
    let unprinted := (blank.takeAll (steps.filter Step.builds)).2
    sheet.IsRoot 0 ∧
      (sheet.take (.print { node := 0 })).1 = (unprinted.take (.print { node := 0 })).1 ∧
      ∃ text, (sheet.take (.print { node := 0 })).1 = .printed text := by
  intro steps sheet unprinted
  have isRoot : sheet.IsRoot 0 := ⟨{ root := 0, path := [] }, by decide +kernel, rfl⟩
  obtain ⟨-, same, -, printed | refused⟩ := print_eq_print_unprinted steps isRoot
  · exact ⟨isRoot, same, printed⟩
  · have printed : (match (sheet.take (.print { node := 0 })).1 with
        | .printed _ => true
        | _ => false) = true := by
      decide +kernel
    rw [refused] at printed
    cases printed

end Sheet

end DiagramSketch.Svg
