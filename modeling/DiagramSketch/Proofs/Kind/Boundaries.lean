import DiagramSketch.Proofs.Kind.Precedence

/-!
# Tokens and the ends of lines

The rules search the lines side by side.  What they find stands in one of the lines, with two
exceptions: the tokens that have a space can begin at the end of a line and go on in the next one.
-/

namespace DiagramSketch.Kind

/-- The kind that the rules give when a test decides which tokens are there. -/
def decidedBy (found : Text → Bool) : Kind :=
  (ruled.find? fun kind => kind.tokens.any fun group => group.all found).getD panel

/-- Whether a token stands in one of the lines, in lower case. -/
def standsIn (lines : List Text) (token : Text) : Bool :=
  lines.any fun line => token.occursIn (Text.lowered line)

/-- The tokens that have a space: what stands before it and what stands after it. -/
def spacedTokens : List (Text × Text) :=
  [("class", ""), ("if", "(")]

/-- Whether a token has its space between two lines, in lower case. -/
def straddles (lines : List Text) (token : Text) : Bool :=
  spacedTokens.any fun (first, second) =>
    token == first ++ ' ' :: second && Text.meets first second (lines.map Text.lowered)

theorem codeOf_eq (lines : List Text) :
    codeOf lines = List.intercalate [' '] (lines.map Text.lowered) :=
  Text.lowered_intercalate lines

theorem standsIn_iff {lines : List Text} {token : Text} :
    standsIn lines token = true ↔ ∃ line ∈ lines.map Text.lowered, token <:+: line := by
  simp only [standsIn, List.any_eq_true, Text.occursIn_iff, List.mem_map, exists_exists_and_eq_and]

theorem straddles_iff {lines : List Text} {token : Text} :
    straddles lines token = true ↔ ∃ parts ∈ spacedTokens, token = parts.1 ++ ' ' :: parts.2 ∧
      Text.meets parts.1 parts.2 (lines.map Text.lowered) = true := by
  simp only [straddles, List.any_eq_true, Bool.and_eq_true, beq_iff_eq]

theorem solid_of_mem_spacedTokens {parts : Text × Text} (listed : parts ∈ spacedTokens) :
    ' ' ∉ parts.1 ∧ ' ' ∉ parts.2 := by
  have each : ∀ parts ∈ spacedTokens, ' ' ∉ parts.1 ∧ ' ' ∉ parts.2 := by decide
  exact each parts listed

/-- A token has no space, or it is one of those that are listed with their parts. -/
theorem solid_or_spaced {kind : Kind} {group : List Text} (listed : group ∈ kind.tokens)
    {token : Text} (member : token ∈ group) : ' ' ∉ token ∧ token ≠ [] ∨
      ∃ parts ∈ spacedTokens, token = parts.1 ++ ' ' :: parts.2 := by
  have each : ∀ group ∈ kind.tokens, ∀ token ∈ group, ' ' ∉ token ∧ token ≠ [] ∨
      ∃ parts ∈ spacedTokens, token = parts.1 ++ ' ' :: parts.2 := by
    cases kind <;> decide
  exact each group listed token member

/-- A token of a rule occurs in the lines side by side if it stands in one of them, or has its space
between two of them. -/
theorem occursIn_codeOf {kind : Kind} {group : List Text} (listed : group ∈ kind.tokens)
    {token : Text} (member : token ∈ group) (lines : List Text) :
    token.occursIn (codeOf lines) = (standsIn lines token || straddles lines token) := by
  apply Bool.eq_iff_iff.mpr
  rw [Text.occursIn_iff, codeOf_eq, Bool.or_eq_true, standsIn_iff, straddles_iff]
  rcases solid_or_spaced listed member with ⟨solid, filled⟩ | ⟨parts, spaced, rfl⟩
  · rw [Text.isInfix_intercalate_iff solid filled]
    refine (or_iff_left ?_).symm
    rintro ⟨parts, -, rfl, -⟩
    exact absurd (by simp) solid
  · obtain ⟨solid, solidToo⟩ := solid_of_mem_spacedTokens spaced
    rw [Text.isInfix_intercalate_iff_or_meets solid solidToo]
    refine or_congr_right ⟨fun meet => ⟨parts, spaced, rfl, meet⟩, ?_⟩
    rintro ⟨others, -, same, meet⟩
    -- The parts of a token are where its only space is.
    obtain ⟨first, -, second⟩ := (List.append_cons_inj_of_notMem solid solidToo).mp same
    rwa [first, second]

theorem shownBy_codeOf (kind : Kind) (lines : List Text) :
    kind.shownBy (codeOf lines) = kind.tokens.any fun group => group.all fun token =>
      standsIn lines token || straddles lines token := by
  apply Bool.eq_iff_iff.mpr
  simp only [shownBy, List.any_eq_true, List.all_eq_true]
  refine exists_congr fun group => and_congr_right fun listed => ?_
  refine forall₂_congr fun token member => ?_
  rw [occursIn_codeOf listed member]

/-- The kind of lines is decided by what stands in one of them, and by the two tokens that can have
their space between two of them. -/
theorem classify_eq_decidedBy (lines : List Text) :
    classify lines = decidedBy fun token => standsIn lines token || straddles lines token := by
  unfold classify decidedBy
  dsimp only
  simp only [shownBy_codeOf]

/-- A line that is the word of a class and nothing else shows a class with the line after it, though
no line on its own does. -/
theorem classify_ne_decidedBy_standsIn :
    let lines : List Text := ["class", "A"]
    Text.sourceLines "class\nA" = lines ∧ classify lines = classes ∧
      decidedBy (standsIn lines) = panel := by
  intro lines
  refine ⟨?_, ?_, ?_⟩
  all_goals decide +kernel

end DiagramSketch.Kind
