import DiagramSketch.Proofs.Lookup
import DiagramSketch.Proofs.Number.Spelling
import DiagramSketch.Proofs.Svg.Printing
import DiagramSketch.Svg.Element

/-!
# Attributes and the values they are given

A value is sound where it has a spelling, all characters of the spelling are legal, and no marker
is referred to but those that are defined.  Whatever sound values are written as, they make
attributes with names of their own.
-/

namespace DiagramSketch.Svg

open Xml (IsLegalText isLegal)

/-- The text that refers to a definition. -/
def reference (identifier : Text) : Text :=
  "url(#".toList ++ (identifier ++ [')'])

/-- The text refers to nothing but the markers. -/
def RefersTo (markers : List Marker) (content : Text) : Prop :=
  ∀ identifier, content = reference identifier → ∃ marker ∈ markers, marker.name = identifier

/-- A spelling of the value may stand in a drawing with the markers. -/
def Value.IsClean (markers : List Marker) (value : Value) : Prop :=
  ∀ content, value.spelled = .ok (some content) → IsLegalText content ∧ RefersTo markers content

/-- The value has a spelling or is absent. -/
def Value.IsSpelled (value : Value) : Prop :=
  ∃ spelling, value.spelled = .ok spelling

/-- A value under a name that may be given to a shape in a drawing with the markers. -/
structure IsSound (markers : List Marker) (entry : Text × Value) : Prop where
  named : Xml.isName (hyphenated entry.1) = true
  clean : entry.2.IsClean markers
  spelled : entry.2.IsSpelled

theorem refersTo_of_head? {markers : List Marker} {content : Text}
    (other : content.head? ≠ some 'u') : RefersTo markers content := by
  rintro identifier rfl
  exact absurd rfl other

theorem reference_injective {identifier other : Text}
    (same : reference identifier = reference other) : identifier = other :=
  List.append_cancel_right (List.append_cancel_left same)

theorem refersTo_reference {markers : List Marker} {marker : Marker} (member : marker ∈ markers) :
    RefersTo markers (reference marker.name) := by
  intro identifier same
  exact ⟨marker, member, reference_injective same⟩

theorem isLegalText_of_isNumeral {text : Text} (numeral : Number.IsNumeral text) :
    IsLegalText text := by
  intro character member
  have sign := numeral character member
  refine isLegal_of_isNamePart ?_
  simp only [Number.isNumeralChar, Bool.or_eq_true] at sign
  simp only [Xml.isNamePart, Char.isAlphanum, Bool.or_eq_true]
  tauto

theorem head?_of_isNumeral {text : Text} (numeral : Number.IsNumeral text) :
    text.head? ≠ some 'u' := by
  intro starts
  exact absurd (numeral 'u' (List.mem_of_mem_head? starts)) (by decide)

/-- Numbers are spelled with legal characters, and refer to nothing. -/
theorem isClean_number (markers : List Marker) (number : Number) :
    (Value.number number).IsClean markers := by
  intro content spelled
  obtain ⟨text, found, equal⟩ := map_eq_ok_iff.mp spelled
  cases equal
  have numeral := Number.isNumeral_of_formatRounded found
  exact ⟨isLegalText_of_isNumeral numeral, refersTo_of_head? (head?_of_isNumeral numeral)⟩

theorem isSpelled_ofRat {value : Rat} (fits : Number.Fits value) :
    (Value.number (.ofRat value)).IsSpelled := by
  obtain ⟨text, found⟩ := Number.exists_formatRounded fits
  exact ⟨some text, map_eq_ok_iff.mpr ⟨text, found, rfl⟩⟩

/-- Checks a value under a name. Numbers are to be whole and small. -/
def isChecked (markers : List Marker) (entry : Text × Value) : Bool :=
  Xml.isName (hyphenated entry.1) &&
    match entry.2 with
    | .text content => content.all isLegal &&
        (content.head? != some 'u' || markers.any fun marker => content == reference marker.name)
    | .number (.whole value) => value.natAbs ≤ 1000
    | .number (.binary _) => false
    | .flag _ | .absent => true

theorem fits_of_natAbs_le {value : Int} (small : value.natAbs ≤ 1000) :
    Number.Fits (value : Rat) := by
  refine Number.fits_of_abs_le ?_
  have bound : |value| ≤ (1000 : Int) := by
    rw [Int.abs_eq_natAbs]
    exact_mod_cast small
  have cast : |(value : Rat)| ≤ 1000 := by exact_mod_cast bound
  exact cast.trans (by norm_num)

theorem isSound_of_isChecked {markers : List Marker} {entry : Text × Value}
    (checked : isChecked markers entry = true) : IsSound markers entry := by
  obtain ⟨name, value⟩ := entry
  rw [isChecked, Bool.and_eq_true] at checked
  obtain ⟨named, checked⟩ := checked
  cases value with
  | text content =>
      simp only [Bool.and_eq_true, List.all_eq_true, Bool.or_eq_true, bne_iff_ne] at checked
      refine ⟨named, ?_, ⟨_, rfl⟩⟩
      intro spelling spelled
      cases spelled
      refine ⟨checked.1, ?_⟩
      rcases checked.2 with other | refers
      · exact refersTo_of_head? other
      · obtain ⟨marker, member, same⟩ := List.any_eq_true.mp refers
        rw [beq_iff_eq] at same
        rw [same]
        exact refersTo_reference member
  | number number =>
      refine ⟨named, isClean_number markers number, ?_⟩
      cases number with
      | whole whole =>
          have fits := fits_of_natAbs_le (of_decide_eq_true checked)
          have spelled := isSpelled_ofRat fits
          rwa [Number.ofRat_intCast] at spelled
      | binary double => cases checked
  | flag holds =>
      refine ⟨named, ?_, ⟨_, rfl⟩⟩
      intro spelling spelled
      cases holds <;> cases spelled
      · exact ⟨List.all_eq_true.mp rfl, refersTo_of_head? (by decide)⟩
      · exact ⟨List.all_eq_true.mp rfl, refersTo_of_head? (by decide)⟩
  | absent =>
      refine ⟨named, ?_, ⟨_, rfl⟩⟩
      intro spelling spelled
      cases spelled

theorem isSound_of_all {markers : List Marker} {values : Keyed Value}
    (checked : values.all (isChecked markers) = true) :
    ∀ entry ∈ values, IsSound markers entry := by
  intro entry member
  exact isSound_of_isChecked (List.all_eq_true.mp checked entry member)

/-- Every attribute spells one of the values, and no two have one name. -/
theorem mem_attributes {values : Keyed Value} {entries : List Xml.Attribute}
    (made : attributes values = .ok entries) :
    (entries.map Prod.fst).Nodup ∧ ∀ entry ∈ entries, ∃ given ∈ values,
      entry.1 = hyphenated given.1 ∧ given.2.spelled = .ok (some entry.2) := by
  obtain ⟨found, each, made⟩ := bind_eq_ok_iff.mp made
  cases made
  refine ⟨Keyed.nodup_names_ofList _, ?_⟩
  intro entry member
  obtain ⟨spelled, inside, same⟩ := List.mem_filterMap.mp (Keyed.mem_of_mem_ofList member)
  obtain ⟨given, used, wrote⟩ := exists_left_of_mem (mapM_eq_ok_iff.mp each) inside
  obtain ⟨spelling, spelledAs, equal⟩ := map_eq_ok_iff.mp wrote
  obtain rfl : spelled = some entry := same
  obtain ⟨content, rfl, rfl⟩ := Option.map_eq_some_iff.mp equal
  exact ⟨given, Keyed.mem_of_mem_ofList used, rfl, spelledAs⟩

/-- Where no two values are written under one name, the attributes tell the spelling of each. -/
theorem spelled_eq_find?_attributes {values : Keyed Value} {entries : List Xml.Attribute}
    (made : attributes values = .ok entries)
    (distinct : (values.map fun entry => hyphenated entry.1).Nodup) {name : Text} {value : Value}
    (member : (name, value) ∈ values) :
    value.spelled = .ok (Keyed.find? (hyphenated name) entries) := by
  obtain ⟨found, each, listed⟩ := bind_eq_ok_iff.mp made
  have kept : (name, value) ∈ Keyed.ofList values := by
    rw [← Function.comp_def hyphenated Prod.fst, ← List.map_map] at distinct
    exact Keyed.mem_of_find? (Keyed.find?_ofList_of_mem distinct.of_map member)
  obtain ⟨result, inside, wrote⟩ := exists_right_of_mem (mapM_eq_ok_iff.mp each) kept
  obtain ⟨spelling, spelled, rfl⟩ := map_eq_ok_iff.mp wrote
  rw [spelled, Except.ok.injEq]
  cases reached : Keyed.find? (hyphenated name) entries with
  | some content =>
      obtain ⟨given, used, sameName, spelledToo⟩ :=
        (mem_attributes made).2 _ (Keyed.mem_of_find? reached)
      have same := List.inj_on_of_nodup_map distinct member used sameName
      rw [← same, spelled] at spelledToo
      exact Except.ok.inj spelledToo
  | none =>
      cases spelling with
      | none => rfl
      | some content =>
          have used : hyphenated name ∈ Keyed.names entries := by
            cases listed
            have wrote : (hyphenated name, content) ∈ found.filterMap id :=
              List.mem_filterMap.mpr ⟨some (hyphenated name, content), inside, rfl⟩
            exact Keyed.mem_names_ofList.mpr (List.mem_map.mpr ⟨_, wrote, rfl⟩)
          rw [← Keyed.find?_isSome_iff, reached] at used
          cases used

theorem exists_attributes {values : Keyed Value}
    (spelled : ∀ entry ∈ values, entry.2.IsSpelled) :
    ∃ entries, attributes values = .ok entries := by
  obtain ⟨found, each⟩ := exists_mapM_eq_ok (fun entry => written entry.1 entry.2)
    (Keyed.ofList values) fun entry member => by
      obtain ⟨spelling, found⟩ := spelled entry (Keyed.mem_of_mem_ofList member)
      exact ⟨_, map_eq_ok_iff.mpr ⟨spelling, found, rfl⟩⟩
  exact ⟨_, bind_eq_ok_iff.mpr ⟨found, each, rfl⟩⟩

end DiagramSketch.Svg
