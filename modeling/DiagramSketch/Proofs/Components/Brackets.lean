import DiagramSketch.Proofs.Components.Manuscript
import DiagramSketch.Proofs.Components.Resolution
import DiagramSketch.Proofs.Diagram.Identity

/-!
# Names in brackets

A name in brackets declares a component where it stands alone and is an end of a connection beside
an arrow.  The declaration takes off one bracket at either end, the connection all of them, so they
agree on a name exactly when it neither begins nor ends with a bracket itself.
-/

namespace DiagramSketch.Components

variable {name token line : Text} {lines : List Text}

/-! ## Brackets at the ends -/

theorem hasPlainEnds_withoutBrackets (text : Text) : HasPlainEnds (withoutBrackets text) := by
  constructor
  · intro character first
    have shorter : withoutBrackets text <+: text.dropWhile isBracket :=
      List.reverse_suffix.mp (by
        rw [withoutBrackets, List.reverse_reverse]
        exact List.dropWhile_suffix isBracket)
    obtain ⟨rest, whole⟩ := shorter
    refine head?_dropWhile isBracket text character ?_
    rw [← whole, List.head?_append, first]
    rfl
  · rw [withoutBrackets, List.getLast?_reverse]
    exact head?_dropWhile isBracket _

theorem withoutBrackets_bracketed_iff (filled : name ≠ []) :
    withoutBrackets (Mention.bracketed name).text = name ↔ HasPlainEnds name := by
  constructor
  · intro same
    rw [← same]
    exact hasPlainEnds_withoutBrackets _
  · intro plain
    exact withoutBrackets_append (List.forall_mem_singleton.mpr rfl) plain filled
      (List.forall_mem_singleton.mpr rfl)

theorem hasPlainEnds_iff (enclosable : IsEnclosable name) :
    HasPlainEnds name ↔ name.head? ≠ some '[' ∧ name.getLast? ≠ some '[' := by
  have plain {character : Char} (inside : character ∈ name) (other : character ≠ '[') :
      isBracket character = false := by
    have closing : character ≠ ']' := fun same => enclosable.plain (same ▸ inside)
    simp [isBracket, other, closing]
  constructor
  · rintro ⟨first, last⟩
    exact ⟨fun opening => Bool.noConfusion (first _ opening),
      fun opening => Bool.noConfusion (last _ opening)⟩
  · rintro ⟨first, last⟩
    constructor
    · intro character same
      exact plain (List.mem_of_mem_head? same) fun opening => first (opening ▸ same)
    · intro character same
      exact plain (List.mem_of_mem_getLast? same) fun opening => last (opening ▸ same)

/-! ## What lines leave in the components -/

/-- The connection in a line that is read. -/
def Line.connection? : Line → Option Connection
  | .connection read => some read
  | _ => none

theorem connections_declare (name : Text) (given : Option Text) (container : Container)
    (components : Components) :
    (components.declare name given container).connections = components.connections := by
  unfold declare
  dsimp only
  split
  · rfl
  · cases container <;> rfl

theorem connections_follow (reading : Reading) (line : Line) :
    (follow reading line).components.connections =
      reading.components.connections ++ line.connection?.toList := by
  cases line with
  | closing => exact (List.append_nil _).symm
  | package title => exact (List.append_nil _).symm
  | connection read => rfl
  | component name given =>
      exact (connections_declare name given _ _).trans (List.append_nil _).symm

theorem connections_ofLines (lines : List Text) :
    (ofLines lines).connections = (statements lines).filterMap Line.connection? := by
  have added := foldl_flatMap (fun reading : Reading => reading.components.connections)
    (fun line : Line => line.connection?.toList) connections_follow
    { components := empty, isOpen := false } (statements lines)
  rw [List.filterMap_eq_flatMap_toList]
  exact added

theorem mem_statements {read : Line} (listed : line ∈ lines) (filled : line ≠ [])
    (noMark : line.head? ≠ some '@') (isRead : Line.read? line = some read) :
    read ∈ statements lines := by
  refine List.mem_filterMap.mpr ⟨line, List.mem_filter.mpr ⟨listed, ?_⟩, isRead⟩
  simp [filled, noMark]

theorem mem_names_declarationsFrom {given : Option Text} {reading : Reading} {read : List Line}
    (listed : .component name given ∈ read) :
    name ∈ (declarationsFrom reading read).map Declaration.name := by
  induction read generalizing reading with
  | nil => cases listed
  | cons line read induction =>
      rw [declarationsFrom, List.map_append]
      rcases List.mem_cons.mp listed with rfl | later
      · exact List.mem_append_left _ (List.mem_singleton_self name)
      · exact List.mem_append_right _ (induction later)

/-- The key leads to the middle of the box of the component. -/
def LeadsTo (lines : List Text) (key name : Text) : Prop :=
  ∃ layout box, (ofLines lines).layout = .ok layout ∧ layout.components.find? name = some box ∧
    layout.positions.find? key = some box.center

/-- The name of a component leads to it as long as no other one takes the name over. -/
theorem leadsTo_self (declared : name ∈ (declarations lines).map Declaration.name)
    (free : ¬ IsTakenOver (declarations lines) name) : LeadsTo lines name name := by
  have store := isStoreOf_ofLines lines
  have placed : name ∈ (ofLines lines).placed :=
    (perm_placed_ofLines lines).mem_iff.mpr (List.mem_eraseDups.mpr declared)
  have used : name ∈ (ofLines lines).registry.names :=
    (store.keys name).mpr (.inl (mem_introduced.mpr declared))
  obtain ⟨other, found⟩ := Keyed.exists_find?_iff.mpr used
  obtain rfl := ((store.registry name other).mp found).eq_iff.mpr free
  refine ⟨_, _, layout_of_isComplete (isStored_ofLines lines).complete,
    find?_boxes_boxOf _ placed, ?_⟩
  rw [find?_positions, found, Option.map_some]

/-! ## Both readers -/

/-- Wherever both lines are, the connection is recorded, and an end that is the name leads to the
component that is declared, as long as no other one takes the name over. -/
def Connects (token line : Text) (read : Connection) (endpoint name : Text) : Prop :=
  ∀ lines, token ∈ lines → line ∈ lines → read ∈ (ofLines lines).connections ∧
    (endpoint = name → ¬ IsTakenOver (declarations lines) name → LeadsTo lines endpoint name)

theorem read?_bracketed (enclosable : IsEnclosable name) :
    Line.read? (Mention.bracketed name).text = some (.component name none) := by
  have readable : Entry.IsReadable ⟨name, none⟩ := ⟨enclosable, nofun⟩
  have same : (Mention.bracketed name).text = Entry.text ⟨name, none⟩ := rfl
  rw [same, read?_entry readable]

theorem text_ne_nil (link : Link) : link.text ≠ [] :=
  List.append_ne_nil_of_right_ne_nil _ (List.cons_ne_nil _ _)

theorem connects_link {link : Link} (readable : link.IsReadable) (enclosable : IsEnclosable name)
    (endpoint : Text) :
    Connects (Mention.bracketed name).text link.text link.recorded endpoint name := by
  intro lines declaring linking
  constructor
  · have noMark : link.text.head? ≠ some '@' := Mention.head?_text_ne readable.source _
    rw [connections_ofLines]
    exact List.mem_filterMap.mpr
      ⟨_, mem_statements linking (text_ne_nil link) noMark (read?_recorded readable), rfl⟩
  · rintro rfl free
    have declared := mem_statements declaring (List.cons_ne_nil _ _) (by simp [Mention.text])
      (read?_bracketed enclosable)
    exact leadsTo_self (mem_names_declarationsFrom declared) free

/-- A name in brackets declares the component that it names.  At either end of an arrow, the
connection records the same name exactly when the name neither begins nor ends with a bracket, and
then it reaches the component. -/
theorem recorded_eq_declared_iff (enclosable : IsEnclosable name) {other : Mention}
    (readable : other.IsReadable) {arrow : Text} (listed : arrow ∈ arrows) :
    let token : Text := '[' :: (name ++ [']'])
    let outgoing : Text := token ++ ' ' :: (arrow ++ ' ' :: other.text)
    let incoming : Text := other.text ++ ' ' :: (arrow ++ ' ' :: token)
    let isPlain := name.head? ≠ some '[' ∧ name.getLast? ≠ some '['
    Line.read? token = some (.component name none) ∧
      (∃ read, Line.read? outgoing = some (.connection read) ∧ (read.source = name ↔ isPlain) ∧
        Connects token outgoing read read.source name) ∧
      ∃ read, Line.read? incoming = some (.connection read) ∧ (read.target = name ↔ isPlain) ∧
        Connects token incoming read read.target name := by
  intro token outgoing incoming isPlain
  have own : (Mention.bracketed name).IsReadable := enclosable
  have plain : withoutBrackets token = name ↔ isPlain :=
    (withoutBrackets_bracketed_iff enclosable.filled).trans (hasPlainEnds_iff enclosable)
  have unbroken : Text.IsUnbroken [] := List.forall_mem_nil _
  refine ⟨read?_bracketed enclosable, ?_, ?_⟩
  · let link : Link := ⟨.bracketed name, arrow, other, []⟩
    have legible : link.IsReadable := ⟨own, listed, readable, rfl, unbroken⟩
    have written : link.text = outgoing := by
      simp [link, outgoing, token, Link.text, Mention.text, labelSuffix, Text.marked]
    rw [← written]
    exact ⟨link.recorded, read?_recorded legible, plain, connects_link legible enclosable _⟩
  · let link : Link := ⟨other, arrow, .bracketed name, []⟩
    have legible : link.IsReadable := ⟨readable, listed, own, rfl, unbroken⟩
    have written : link.text = incoming := by
      simp [link, incoming, token, Link.text, Mention.text, labelSuffix, Text.marked]
    rw [← written]
    exact ⟨link.recorded, read?_recorded legible, plain, connects_link legible enclosable _⟩

/-- A bracket within a name does no harm. -/
theorem leadsTo_inner_bracket :
    let lines : List Text := ["[Web [old]", "web --> [Web [old]"]
    IsEnclosable "Web [old" ∧ (Mention.word "web").IsReadable ∧ "-->".toList ∈ arrows ∧
      ∃ read, Line.read? "web --> [Web [old]" = some (.connection read) ∧
        read ∈ (ofLines lines).connections ∧ read.target = "Web [old" ∧
        LeadsTo lines read.target "Web [old" := by
  intro lines
  have enclosable : IsEnclosable "Web [old" := ⟨by decide, by decide⟩
  have readable : (Mention.word "web").IsReadable :=
    Text.isName_of_isLower (by decide) (by decide)
  have listed : "-->".toList ∈ arrows := by decide
  obtain ⟨-, -, read, isRead, same, connects⟩ :=
    recorded_eq_declared_iff enclosable readable listed
  have target : read.target = "Web [old" := same.mpr (by decide)
  have history : declarations lines = [⟨"Web [old", none, none⟩] := by decide +kernel
  have free : ¬ IsTakenOver (declarations lines) "Web [old" := by
    rw [history]
    rintro ⟨number, declaration, found, different, -⟩
    match number with
    | 0 => exact different (Option.some.inj found ▸ rfl)
    | number + 1 => cases found
  have both := connects lines (by decide) (by decide)
  exact ⟨enclosable, readable, listed, read, isRead, both.1, target, both.2 target free⟩

/-- A component whose name begins with a bracket is not found by a connection. -/
theorem recorded_ne_declared :
    let components := ofLines ["[[A]", "[[A] --> X"]
    Line.read? "[[A]" = some (.component "[A" none) ∧
      Line.read? "[[A] --> X" = some (.connection ⟨"A", "-->", "X", []⟩) ∧
      components.standalone = ["[A"] ∧ components.registry.find? "A" = none := by
  decide +kernel

end DiagramSketch.Components
