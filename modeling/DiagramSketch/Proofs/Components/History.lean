import DiagramSketch.Components.Basic
import DiagramSketch.Proofs.Results

/-!
# Histories of declarations

What a list of declarations says about components, told without the store that they are made in:
which components there are, where each of them is placed, which alias it goes by, and what a key
stands for.  Every notion comes with what one more declaration changes about it.
-/

namespace DiagramSketch.Components

/-- A declaration of a component: its name, the alias that is given, and where it is made. -/
structure Declaration where
  name : Text
  given : Option Text
  container : Container
deriving DecidableEq, Repr

/-- The alias that a declaration gives. An empty one is none. -/
def Declaration.alias? (declaration : Declaration) : Option Text :=
  declaration.given.filter fun text => !text.isEmpty

/-- The declarations that are the first of their names, in order. -/
def firsts : List Declaration → List Declaration
  | [] => []
  | declaration :: history =>
      declaration :: (firsts history).filter fun other => other.name != declaration.name

/-- The names that are declared, in the order of their first declarations. -/
def introduced (history : List Declaration) : List Text :=
  (firsts history).map Declaration.name

/-- The names whose first declarations are made in the container, in order. -/
def housed (history : List Declaration) (container : Container) : List Text :=
  ((firsts history).filter fun declaration => declaration.container == container).map
    Declaration.name

/-- The alias that a component goes by after the declarations: the last one that they give it, and
its name if they give none. -/
def aliasAfter (history : List Declaration) (name : Text) : Text :=
  ((history.filter fun declaration => declaration.name == name).filterMap
    Declaration.alias?).getLast?.getD name

/-- The key is the alias that some component goes by after some of the declarations. -/
def IsEverAlias (history : List Declaration) (key : Text) : Prop :=
  ∃ earlier, earlier <+: history ∧
    ∃ declaration ∈ earlier, aliasAfter earlier declaration.name = key

/-- The declaration with the number binds the key: it declares the name, or leaves its component
with the alias. -/
def Binds (history : List Declaration) (key : Text) (number : Nat) : Prop :=
  ∃ declaration, history[number]? = some declaration ∧ (declaration.name = key ∨
    aliasAfter (history.take (number + 1)) declaration.name = key)

/-- The latest declaration that binds the key is one of the component. -/
def StandsFor (history : List Declaration) (key name : Text) : Prop :=
  ∃ number, Binds history key number ∧ (∀ later, number < later → ¬ Binds history key later) ∧
    history[number]?.map Declaration.name = some name

variable {history : List Declaration} {declaration : Declaration} {key name : Text}

/-! ## First declarations -/

theorem firsts_append_singleton (history : List Declaration) (declaration : Declaration) :
    firsts (history ++ [declaration]) =
      if declaration.name ∈ history.map Declaration.name then firsts history
      else firsts history ++ [declaration] := by
  induction history with
  | nil => rfl
  | cons first history induction =>
      rw [List.cons_append, firsts, firsts, induction, List.map_cons]
      by_cases same : declaration.name = first.name
      · rw [if_pos (List.mem_cons.mpr (.inl same))]
        split <;> simp [same]
      · by_cases member : declaration.name ∈ history.map Declaration.name
        · rw [if_pos member, if_pos (List.mem_cons_of_mem _ member)]
        · rw [if_neg member, if_neg (by simpa [same] using member)]
          simp [same]

theorem mem_introduced : name ∈ introduced history ↔ name ∈ history.map Declaration.name := by
  induction history using List.reverseRecOn with
  | nil => rfl
  | append_singleton history declaration induction =>
      rw [introduced, firsts_append_singleton, List.map_append, List.mem_append, ← induction,
        List.map_singleton, List.mem_singleton]
      split
      · next known =>
          refine (or_iff_left_of_imp ?_).symm
          rintro rfl
          exact induction.mpr known
      · rw [List.map_append, List.mem_append, List.map_singleton, List.mem_singleton]
        rfl

theorem introduced_append_singleton (history : List Declaration) (declaration : Declaration) :
    introduced (history ++ [declaration]) =
      if declaration.name ∈ introduced history then introduced history
      else introduced history ++ [declaration.name] := by
  rw [introduced, firsts_append_singleton]
  simp only [mem_introduced]
  split
  · rfl
  · exact List.map_append

theorem nodup_introduced (history : List Declaration) : (introduced history).Nodup := by
  induction history using List.reverseRecOn with
  | nil => exact List.nodup_nil
  | append_singleton history declaration induction =>
      rw [introduced_append_singleton]
      split
      · exact induction
      · next fresh => exact nodup_append_singleton induction fresh

theorem housed_of_mem (known : declaration.name ∈ introduced history) (container : Container) :
    housed (history ++ [declaration]) container = housed history container := by
  rw [housed, firsts_append_singleton, if_pos (mem_introduced.mp known), housed]

theorem housed_of_not_mem (fresh : declaration.name ∉ introduced history)
    (container : Container) :
    housed (history ++ [declaration]) container = housed history container ++
      if declaration.container = container then [declaration.name] else [] := by
  rw [housed, firsts_append_singleton, if_neg (mt mem_introduced.mpr fresh), List.filter_append,
    List.map_append, housed]
  by_cases same : declaration.container = container <;> simp [same]

theorem housed_eq_nil {container : Container}
    (elsewhere : ∀ declaration ∈ history, declaration.container ≠ container) :
    housed history container = [] := by
  induction history using List.reverseRecOn with
  | nil => rfl
  | append_singleton history declaration induction =>
      have before := induction fun other member =>
        elsewhere other (List.mem_append_left _ member)
      by_cases known : declaration.name ∈ introduced history
      · rw [housed_of_mem known, before]
      · have last := elsewhere declaration (List.mem_append_right _ (List.mem_singleton.mpr rfl))
        rw [housed_of_not_mem known, before, if_neg last, List.append_nil]

/-! ## Aliases -/

theorem aliasAfter_append_singleton (history : List Declaration) (declaration : Declaration)
    (name : Text) : aliasAfter (history ++ [declaration]) name =
      if declaration.name = name then declaration.alias?.getD (aliasAfter history name)
      else aliasAfter history name := by
  rw [aliasAfter, List.filter_append, List.filterMap_append, List.getLast?_append]
  by_cases same : declaration.name = name
  · rw [if_pos same, List.filter_cons_of_pos (by simpa using same), List.filter_nil]
    cases given : declaration.alias? with
    | none => simp [given, aliasAfter]
    | some chosen => simp [given]
  · rw [if_neg same, List.filter_cons_of_neg (by simpa using same)]
    rfl

theorem aliasAfter_of_not_mem (fresh : name ∉ introduced history) :
    aliasAfter history name = name := by
  have none : (history.filter fun declaration => declaration.name == name) = [] := by
    rw [List.filter_eq_nil_iff]
    intro declaration member same
    exact fresh (mem_introduced.mpr (List.mem_map.mpr ⟨declaration, member, eq_of_beq same⟩))
  rw [aliasAfter, none]
  rfl

/-- A new declaration puts an alias in force only where it leaves its own component with it. -/
theorem isEverAlias_append_singleton_iff :
    IsEverAlias (history ++ [declaration]) key ↔ IsEverAlias history key ∨
      aliasAfter (history ++ [declaration]) declaration.name = key := by
  constructor
  · rintro ⟨earlier, start, other, member, rfl⟩
    rcases List.prefix_concat_iff.mp start with rfl | start
    · by_cases same : declaration.name = other.name
      · exact .inr (by rw [same])
      · rw [aliasAfter_append_singleton, if_neg same]
        rcases List.mem_append.mp member with inside | last
        · exact .inl ⟨history, List.prefix_refl _, other, inside, rfl⟩
        · exact absurd (congrArg Declaration.name (List.mem_singleton.mp last)).symm same
    · exact .inl ⟨earlier, start, other, member, rfl⟩
  · rintro (⟨earlier, start, found⟩ | last)
    · exact ⟨earlier, start.trans (List.prefix_append _ _), found⟩
    · exact ⟨_, List.prefix_refl _, declaration, by simp, last⟩

/-! ## Keys -/

theorem Binds.lt_length {number : Nat} (binds : Binds history key number) :
    number < history.length := by
  obtain ⟨declaration, found, -⟩ := binds
  exact (List.getElem?_eq_some_iff.mp found).1

theorem binds_append_of_lt {number : Nat} (inside : number < history.length) :
    Binds (history ++ [declaration]) key number ↔ Binds history key number := by
  rw [Binds, Binds, List.getElem?_append_left inside, List.take_append_of_le_length inside]

theorem binds_append_length : Binds (history ++ [declaration]) key history.length ↔
    declaration.name = key ∨
      aliasAfter (history ++ [declaration]) declaration.name = key := by
  have whole : (history ++ [declaration]).take (history.length + 1) = history ++ [declaration] :=
    List.take_of_length_le (by simp)
  rw [Binds, List.getElem?_concat_length, whole]
  simp

/-- A key stands for the component of a new declaration that binds it. -/
theorem standsFor_append_iff (binds : declaration.name = key ∨
    aliasAfter (history ++ [declaration]) declaration.name = key) :
    StandsFor (history ++ [declaration]) key name ↔ declaration.name = name := by
  have last := binds_append_length.mpr binds
  constructor
  · rintro ⟨number, bound, latest, named⟩
    have inside := bound.lt_length
    rw [List.length_append, List.length_singleton] at inside
    have final : number = history.length := by
      by_contra different
      exact latest history.length (by omega) last
    rw [final, List.getElem?_concat_length] at named
    exact Option.some.inj named
  · rintro rfl
    refine ⟨history.length, last, fun later beyond bound => ?_, ?_⟩
    · have inside := bound.lt_length
      rw [List.length_append, List.length_singleton] at inside
      omega
    · rw [List.getElem?_concat_length, Option.map_some]

/-- A key goes on standing for the same component if a new declaration does not bind it. -/
theorem standsFor_append_iff_of_not (other : ¬ (declaration.name = key ∨
    aliasAfter (history ++ [declaration]) declaration.name = key)) :
    StandsFor (history ++ [declaration]) key name ↔ StandsFor history key name := by
  have unbound := mt binds_append_length.mp other
  have inside {number : Nat} (bound : Binds (history ++ [declaration]) key number) :
      number < history.length := by
    have within := bound.lt_length
    rw [List.length_append, List.length_singleton] at within
    refine lt_of_le_of_ne (by omega) ?_
    rintro rfl
    exact unbound bound
  constructor
  · rintro ⟨number, bound, latest, named⟩
    rw [List.getElem?_append_left (inside bound)] at named
    refine ⟨number, (binds_append_of_lt (inside bound)).mp bound, fun later beyond again => ?_,
      named⟩
    exact latest later beyond ((binds_append_of_lt again.lt_length).mpr again)
  · rintro ⟨number, bound, latest, named⟩
    refine ⟨number, (binds_append_of_lt bound.lt_length).mpr bound, fun later beyond again => ?_,
      ?_⟩
    · exact latest later beyond ((binds_append_of_lt (inside again)).mp again)
    · rwa [List.getElem?_append_left bound.lt_length]

end DiagramSketch.Components
