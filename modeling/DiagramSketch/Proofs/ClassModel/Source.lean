import DiagramSketch.Proofs.ClassModel.Lines
import DiagramSketch.Proofs.Diagram.Distinct

/-!
# What a source says about classes

The classes, their members and the relationships of a source are told by its lines alone: which of
them declare a class, and which class is open at each of them.
-/

namespace DiagramSketch.ClassModel

variable {lines : List Text} {line name : Text} {reading : Reading} {entry : ClassEntry}

/-! ## Lines -/

/-- The line neither declares a class nor closes one. -/
structure IsContent (line : Text) : Prop where
  plain : ¬ IsDeclaration line
  inside : line ≠ ['\x7d']

theorem isContent_iff : ¬ IsDeclaration line ∧ line ≠ ['\x7d'] ↔ IsContent line :=
  ⟨fun both => ⟨both.1, both.2⟩, fun content => ⟨content.plain, content.inside⟩⟩

instance : Decidable (IsContent line) :=
  decidable_of_iff _ isContent_iff

theorem not_isDeclaration_brace : ¬ IsDeclaration ['\x7d'] := by
  rw [← isSome_declared?_iff]
  decide

theorem read_of_declares (declares : Declares line name) : Line.read line = .declaration name := by
  rw [Line.read, declared?_eq_some_iff.mpr declares]

theorem read_of_isContent (content : IsContent line) : Line.read line = .content line := by
  have undeclared : declared? line = none := by
    rw [← Option.not_isSome_iff_eq_none, isSome_declared?_iff]
    exact content.plain
  rw [Line.read, undeclared]
  exact if_neg content.inside

/-- A line declares a class, closes one, or belongs to one. -/
theorem read_cases (line : Text) :
    (∃ name, Declares line name ∧ Line.read line = .declaration name) ∨
      (line = ['\x7d'] ∧ Line.read line = .closing) ∨
      (IsContent line ∧ Line.read line = .content line) := by
  by_cases declaration : IsDeclaration line
  · obtain ⟨name, declares⟩ := declaration
    exact .inl ⟨name, declares, read_of_declares declares⟩
  · by_cases brace : line = ['\x7d']
    · subst brace
      exact .inr (.inl ⟨rfl, rfl⟩)
    · have content : IsContent line := ⟨declaration, brace⟩
      exact .inr (.inr ⟨content, read_of_isContent content⟩)

/-! ## Open classes -/

/-- After the lines the class is open: one of them declares it, and none of the later ones declares
a class or closes one. -/
def IsOpenAfter (lines : List Text) (name : Text) : Prop :=
  ∃ before line after, lines = before ++ line :: after ∧ Declares line name ∧
    ∀ other ∈ after, IsContent other

/-- What has been read after the lines. -/
def readAfter (lines : List Text) : Reading :=
  (lines.map Line.read).foldl follow { model := empty, openClass := none }

theorem readAfter_append_singleton (lines : List Text) (line : Text) :
    readAfter (lines ++ [line]) = follow (readAfter lines) (Line.read line) := by
  rw [readAfter, List.map_append, List.foldl_append]
  rfl

/-- One more line opens a class, or leaves the one open that is. -/
theorem isOpenAfter_append_singleton :
    IsOpenAfter (lines ++ [line]) name ↔
      Declares line name ∨ IsContent line ∧ IsOpenAfter lines name := by
  constructor
  · rintro ⟨before, opening, after, whole, declares, content⟩
    rcases List.eq_nil_or_concat after with rfl | ⟨between, last, rfl⟩
    · obtain ⟨-, same⟩ := List.append_inj' whole rfl
      exact .inl (List.singleton_inj.mp same ▸ declares)
    · rw [List.concat_eq_append, ← List.cons_append, ← List.append_assoc] at whole
      obtain ⟨earlier, same⟩ := List.append_inj' whole rfl
      rw [List.concat_eq_append, ← List.singleton_inj.mp same] at content
      obtain ⟨others, own⟩ := List.forall_mem_append.mp content
      exact .inr ⟨List.forall_mem_singleton.mp own, before, opening, between, earlier, declares,
        others⟩
  · rintro (declares | ⟨own, before, opening, after, rfl, declares, content⟩)
    · exact ⟨lines, line, [], rfl, declares, List.forall_mem_nil _⟩
    · refine ⟨before, opening, after ++ [line], by simp, declares, ?_⟩
      exact List.forall_mem_append.mpr ⟨content, List.forall_mem_singleton.mpr own⟩

/-- The class that is open when a line is reached is the one that the earlier lines leave open. -/
theorem openClass_readAfter : (readAfter lines).openClass = some name ↔ IsOpenAfter lines name := by
  induction lines using List.reverseRecOn generalizing name with
  | nil =>
      refine iff_of_false (fun opened => by cases opened) ?_
      rintro ⟨before, opening, after, whole, -⟩
      exact List.append_ne_nil_of_right_ne_nil before (List.cons_ne_nil _ _) whole.symm
  | append_singleton lines line induction =>
      rw [readAfter_append_singleton, isOpenAfter_append_singleton]
      rcases read_cases line with ⟨other, declares, read⟩ | ⟨rfl, read⟩ | ⟨content, read⟩
      · rw [read, follow, Option.some_inj]
        constructor
        · rintro rfl
          exact .inl declares
        · rintro (again | ⟨content, -⟩)
          · exact Option.some_inj.mp
              ((declared?_eq_some_iff.mpr declares).symm.trans (declared?_eq_some_iff.mpr again))
          · exact absurd ⟨other, declares⟩ content.plain
      · rw [read, follow]
        refine iff_of_false (fun opened => by cases opened) ?_
        rintro (declares | ⟨content, -⟩)
        · exact not_isDeclaration_brace ⟨name, declares⟩
        · exact content.inside rfl
      · rw [read, follow, induction]
        refine ⟨fun opened => .inr ⟨content, opened⟩, ?_⟩
        rintro (declares | ⟨-, opened⟩)
        · exact absurd ⟨name, declares⟩ content.plain
        · exact opened

instance : Decidable (IsOpenAfter lines name) :=
  decidable_of_iff _ openClass_readAfter

/-! ## Members -/

/-- What a member of a sort looks like: a method has both parentheses; an attribute has not, and it
has not the word for classes. -/
def Member.IsShownBy : Member → Text → Prop
  | .method, line => '(' ∈ line ∧ ')' ∈ line
  | .attribute, line => ¬ ('(' ∈ line ∧ ')' ∈ line) ∧ ¬ "class".toList <:+: line

/-- The line is a member of the class when it stands after the others: the class is open, and the
line looks like one. -/
structure IsMemberOf (name : Text) (member : Member) (earlier : List Text) (line : Text) :
    Prop where
  isOpen : IsOpenAfter earlier name
  content : IsContent line
  filled : line ≠ ['\x7b']
  shown : member.IsShownBy line

/-- The lines of which something holds that depends on the lines before, in order. -/
def linesWhere (holds : List Text → Text → Prop) [∀ earlier line, Decidable (holds earlier line)]
    (lines : List Text) : List Text :=
  (lines.zipIdx.filter fun (line, index) => holds (lines.take index) line).map Prod.fst

/-- The members of a class, of either sort. -/
def membersOf (entry : ClassEntry) : Member → List Text
  | .attribute => entry.attributes
  | .method => entry.methods

variable {member : Member} {earlier : List Text}

theorem member?_eq_some_iff :
    member? line = some member ↔ line ≠ ['\x7b'] ∧ member.IsShownBy line := by
  by_cases brace : line = ['\x7b']
  · rw [brace]
    exact iff_of_false (fun found => by cases found) fun both => both.1 rfl
  · simp only [member?, if_neg brace, Bool.and_eq_true, List.contains_iff_mem, Text.occursIn_iff]
    by_cases both : '(' ∈ line ∧ ')' ∈ line <;> by_cases word : "class".toList <:+: line <;>
      cases member <;> simp_all [Member.IsShownBy]

theorem isMemberOf_iff : IsMemberOf name member earlier line ↔
    IsContent line ∧ (readAfter earlier).openClass = some name ∧ member? line = some member := by
  rw [openClass_readAfter, member?_eq_some_iff]
  constructor
  · rintro ⟨isOpen, content, filled, shown⟩
    exact ⟨content, isOpen, filled, shown⟩
  · rintro ⟨content, isOpen, filled, shown⟩
    exact ⟨isOpen, content, filled, shown⟩

instance : Decidable (IsMemberOf name member earlier line) :=
  decidable_of_iff _ isMemberOf_iff.symm

section

variable {holds : List Text → Text → Prop} [∀ earlier line, Decidable (holds earlier line)]

theorem linesWhere_append_singleton :
    linesWhere holds (lines ++ [line]) =
      linesWhere holds lines ++ if holds lines line then [line] else [] := by
  have before : (lines.zipIdx.filter fun (other, index) =>
      holds ((lines ++ [line]).take index) other) =
      lines.zipIdx.filter fun (other, index) => holds (lines.take index) other := by
    refine List.filter_congr fun (other, index) inside => ?_
    have same : (lines ++ [line]).take index = lines.take index :=
      List.take_append_of_le_length (List.snd_lt_of_mem_zipIdx inside).le
    simp only [same]
  rw [linesWhere, List.zipIdx_append, List.filter_append, before, List.map_append, linesWhere]
  by_cases last : holds lines line <;> simp [last]

theorem linesWhere_eq_nil (never : ∀ earlier line, earlier <+: lines → ¬ holds earlier line) :
    linesWhere holds lines = [] := by
  refine List.map_eq_nil_iff.mpr (List.filter_eq_nil_iff.mpr fun (line, index) _ => ?_)
  simpa using never _ line (List.take_prefix index lines)

end

/-- What a line that belongs to the open class makes of a class. -/
def credited (reading : Reading) (line : Text) (entry : ClassEntry) : ClassEntry :=
  if reading.openClass = some entry.name then (member? line).elim entry (addMember line entry)
  else entry

theorem classes_follow_content (reading : Reading) (line : Text) :
    (follow reading (.content line)).model.classes =
      reading.model.classes.map (credited reading line) := by
  unfold follow credited
  cases isOpen : reading.openClass with
  | none => simp
  | some name =>
      dsimp only
      unfold addTo
      cases member? line with
      | none => simp
      | some member =>
          refine List.map_congr_left fun entry _ => ?_
          by_cases same : entry.name = name
          · simp [same]
          · simp [same, Ne.symm same]

theorem name_credited : (credited reading line entry).name = entry.name := by
  unfold credited
  split
  · cases member? line with
    | none => rfl
    | some member => cases member <;> rfl
  · rfl

theorem membersOf_credited : membersOf (credited reading line entry) member =
    membersOf entry member ++
      if reading.openClass = some entry.name ∧ member? line = some member then [line] else [] := by
  unfold credited
  by_cases isOpen : reading.openClass = some entry.name
  · rw [if_pos isOpen]
    cases read : member? line with
    | none => simp
    | some other => cases other <;> cases member <;> simp [membersOf, addMember, isOpen]
  · simp [isOpen]

theorem mem_names_readAfter (isOpen : IsOpenAfter earlier name) (before : earlier <+: lines) :
    name ∈ (readAfter lines).model.names := by
  obtain ⟨others, opening, after, rfl, declares, -⟩ := isOpen
  have listed : opening ∈ lines :=
    before.subset (List.mem_append_right others List.mem_cons_self)
  rw [readAfter, names_foldl, List.mem_eraseDups, List.mem_flatMap]
  refine ⟨_, List.mem_map_of_mem listed, ?_⟩
  rw [read_of_declares declares]
  exact List.mem_singleton_self name

/-- A class that is new has no members, and its name is new. -/
theorem mem_classes_introduce {model : ClassModel}
    (listed : entry ∈ (model.introduce name).classes) :
    entry ∈ model.classes ∨
      name ∉ model.names ∧ entry = { name, attributes := [], methods := [] } := by
  unfold introduce at listed
  split at listed
  · exact .inl listed
  · next fresh =>
      rcases List.mem_append.mp listed with old | new
      · exact .inl old
      · refine .inr ⟨fun known => fresh ?_, List.mem_singleton.mp new⟩
        obtain ⟨other, member, same⟩ := List.mem_map.mp known
        exact List.any_eq_true.mpr ⟨other, member, beq_iff_eq.mpr same⟩

/-- The members of every class are the lines at which it is open and that look like members. -/
theorem membersOf_readAfter (lines : List Text) :
    ∀ entry ∈ (readAfter lines).model.classes, ∀ member,
      membersOf entry member = linesWhere (IsMemberOf entry.name member) lines := by
  induction lines using List.reverseRecOn with
  | nil => exact List.forall_mem_nil _
  | append_singleton lines line induction =>
      -- A line that is no content is no member, but it can add a class, whose name is new.
      have unchanged (other : ¬ IsContent line) (name : Text) (member : Member) :
          linesWhere (IsMemberOf name member) (lines ++ [line]) =
            linesWhere (IsMemberOf name member) lines := by
        rw [linesWhere_append_singleton, if_neg fun belongs => other belongs.content,
          List.append_nil]
      rw [readAfter_append_singleton]
      rcases read_cases line with ⟨name, declares, read⟩ | ⟨rfl, read⟩ | ⟨content, read⟩
      · rw [read]
        intro entry listed member
        rw [unchanged fun content => content.plain ⟨name, declares⟩]
        rcases mem_classes_introduce listed with old | ⟨fresh, rfl⟩
        · exact induction entry old member
        · have never : linesWhere (IsMemberOf name member) lines = [] :=
            linesWhere_eq_nil fun earlier line before belongs =>
              fresh (mem_names_readAfter belongs.isOpen before)
          rw [never]
          cases member <;> rfl
      · rw [read]
        intro entry listed member
        rw [unchanged fun content => content.inside rfl]
        exact induction entry listed member
      · rw [read, classes_follow_content]
        refine List.forall_mem_map.mpr fun entry listed member => ?_
        rw [membersOf_credited, name_credited, linesWhere_append_singleton,
          induction entry listed member]
        simp only [isMemberOf_iff, content, true_and]

/-! ## Classes and relationships -/

/-- The relationship that is recorded for a line. -/
def relationshipIn? (line : Text) : Option Relationship :=
  if IsContent line then findRelationship? false line else none

/-- The relationship that is recorded for a line as it is read. -/
def Line.relationships : Line → List Relationship
  | .declaration _ => []
  | .closing => []
  | .content line => (findRelationship? false line).toList

theorem relationships_read (line : Text) :
    (Line.read line).relationships = (relationshipIn? line).toList := by
  unfold relationshipIn?
  rcases read_cases line with ⟨name, declares, read⟩ | ⟨rfl, read⟩ | ⟨content, read⟩
  · rw [read, if_neg fun content => content.plain ⟨name, declares⟩]
    rfl
  · rw [read, if_neg fun content => content.inside rfl]
    rfl
  · rw [read, if_pos content]
    rfl

theorem relationships_introduce (name : Text) (model : ClassModel) :
    (model.introduce name).relationships = model.relationships := by
  unfold introduce
  split
  · rfl
  · rfl

theorem relationships_addTo (name line : Text) (model : ClassModel) :
    (model.addTo name line).relationships = model.relationships := by
  unfold addTo
  cases member? line with
  | none => rfl
  | some member => rfl

theorem relationships_follow (reading : Reading) (line : Line) :
    (follow reading line).model.relationships =
      reading.model.relationships ++ line.relationships := by
  cases line with
  | declaration name => simp [follow, Line.relationships, relationships_introduce]
  | closing => simp [follow, Line.relationships]
  | content line =>
      cases isOpen : reading.openClass with
      | none => simp [follow, Line.relationships, isOpen]
      | some name => simp [follow, Line.relationships, isOpen, relationships_addTo]

theorem relationships_readAfter (lines : List Text) :
    (readAfter lines).model.relationships = lines.filterMap relationshipIn? := by
  have added := foldl_flatMap (fun reading : Reading => reading.model.relationships)
    Line.relationships relationships_follow { model := empty, openClass := none }
    (lines.map Line.read)
  rw [List.filterMap_eq_flatMap_toList, ← List.flatMap_congr fun line _ => relationships_read line,
    ← List.flatMap_map]
  exact added

theorem relationshipIn?_eq_some {relationship : Relationship}
    (found : relationshipIn? line = some relationship) : relationship.IsLeftmost line := by
  unfold relationshipIn? at found
  split at found
  · exact findRelationship?_false_eq_some_iff.mp found
  · cases found

theorem isSome_relationshipIn?_iff :
    (relationshipIn? line).isSome = true ↔ IsContent line ∧ HasRelation line := by
  unfold relationshipIn?
  split
  · next content => rw [isSome_findRelationship?_iff, and_iff_right content]
  · next other => exact iff_of_false (fun found => by cases found) fun both => other both.1

theorem names_readAfter (lines : List Text) :
    (readAfter lines).model.names = (lines.filterMap declared?).eraseDups := by
  have declared (line : Text) : (Line.read line).declared = (declared? line).toList := by
    unfold Line.read
    cases declared? line with
    | some name => rfl
    | none =>
        dsimp only
        split
        · rfl
        · rfl
  rw [readAfter, names_foldl, List.flatMap_map, List.filterMap_eq_flatMap_toList,
    List.flatMap_congr fun line _ => declared line]

/-- A source is read as its lines say.  The classes are those that are declared, in the order in
which they are declared first, and with the lines as members at which they are open and that look
like members.  A line that has a relationship and belongs to a class or to none gives the leftmost
one, whether a class is open or not. -/
theorem classes_and_relationships_ofLines (lines : List Text) :
    let content := Text.contentLines lines
    (∃ declared, List.Forall₂ Declares (content.filter fun line => IsDeclaration line) declared ∧
      (ofLines lines).names = declared.eraseDups) ∧
    (∀ entry ∈ (ofLines lines).classes,
      entry.methods = linesWhere (IsMemberOf entry.name .method) content ∧
      entry.attributes = linesWhere (IsMemberOf entry.name .attribute) content) ∧
    List.Forall₂ (fun line (relationship : Relationship) => relationship.IsLeftmost line)
      (content.filter fun line => IsContent line ∧ HasRelation line)
      (ofLines lines).relationships := by
  intro content
  refine ⟨⟨content.filterMap declared?, ?_, names_readAfter content⟩, ?_, ?_⟩
  · refine forall₂_filter_filterMap (fun line => ?_) (fun line name => declared?_eq_some_iff.mp) _
    rw [decide_eq_true_iff, isSome_declared?_iff]
  · intro entry listed
    exact ⟨membersOf_readAfter content entry listed .method,
      membersOf_readAfter content entry listed .attribute⟩
  · have relationships : (ofLines lines).relationships = content.filterMap relationshipIn? :=
      relationships_readAfter content
    rw [relationships]
    refine forall₂_filter_filterMap (fun line => ?_) (fun line _ => relationshipIn?_eq_some) _
    rw [decide_eq_true_iff, isSome_relationshipIn?_iff]

/-- A class that is declared again goes on where it was closed. -/
example : ofLines ["class A \x7b", "x", "\x7d", "y", "class A", "f(A --> B) <-- C"] =
    { classes := [⟨"A", ["x"], ["f(A --> B) <-- C"]⟩], relationships := [⟨"A", "-->", "B"⟩] } := by
  decide +kernel

end DiagramSketch.ClassModel
