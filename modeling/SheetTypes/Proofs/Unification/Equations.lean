import SheetTypes.Proofs.Substitution
import SheetTypes.Unification

/-!
Equations between the parts of two types. With values put in for variables and units, two types of
one shape are equal exactly if the equations between their parts hold, and two types of different
shapes never are.
-/

set_option autoImplicit false

namespace SheetTypes.Unification

variable {ν υ : Type} {types : TypeVar → TypeTerm ν υ} {units : InferredUnit → υ}
  {equations : List Equation} {left right : InferredType}
  {lefts rights : List (Operand InferredType InferredUnit)}

open TypeTerm

namespace Equation

def Holds (types : TypeVar → TypeTerm ν υ) (units : InferredUnit → υ) : Equation → Prop
  | .types left right => left.substitute types units = right.substitute types units
  | .units left right => units left = units right
  | .clash => False

def Among (left right : InferredType) : Equation → Prop
  | .types first second => first ∈ left.children ∧ second ∈ right.children
  | .units first second => left.HasUnit first ∧ right.HasUnit second
  | .clash => True

def swap : Equation → Equation
  | .types left right => .types right left
  | .units left right => .units right left
  | .clash => .clash

end Equation

private theorem operandEquation_holds
    (left right : Operand InferredType InferredUnit) :
    (operandEquation left right).Holds types units ↔
      left.map (TypeTerm.substitute types units) units =
        right.map (TypeTerm.substitute types units) units := by
  cases left <;> cases right <;> simp [operandEquation, Equation.Holds, Operand.map]

private theorem forall_operands (same : lefts.length = rights.length) :
    (∀ equation ∈ List.zipWith operandEquation lefts rights, equation.Holds types units) ↔
      lefts.map (Operand.map (TypeTerm.substitute types units) units) =
        rights.map (Operand.map (TypeTerm.substitute types units) units) := by
  induction lefts generalizing rights with
  | nil =>
    cases rights with
    | nil => simp
    | cons right rights => cases same
  | cons left lefts ih =>
    cases rights with
    | nil => cases same
    | cons right rights =>
      have rest := ih (Nat.succ.inj same)
      rw [List.zipWith_cons_cons, List.forall_mem_cons, rest, List.map_cons, List.map_cons,
        List.cons.injEq, operandEquation_holds]

/-- Whether two types that are no variables have as many parts and are built from parts alike. -/
structure SameShape (left right : InferredType) : Prop where
  leftCompound : left.isVar = false
  rightCompound : right.isVar = false
  lengths : left.parts.length = right.parts.length
  rebuild : ∀ {κ ξ : Type} (others : List (Operand (TypeTerm κ ξ) ξ)),
    left.rebuild others = right.rebuild others

private theorem zipWith_types (lefts rights : List InferredType) :
    List.zipWith operandEquation (lefts.map .type) (rights.map .type) =
      List.zipWith .types lefts rights := by
  rw [List.zipWith_map]
  rfl

private theorem sameShape_of_decompose (found : decompose left right = some equations) :
    SameShape left right ∧
      List.zipWith operandEquation left.parts right.parts = equations := by
  unfold decompose at found
  split at found
  next => exact ⟨⟨rfl, rfl, rfl, fun _ => rfl⟩, Option.some.inj found⟩
  next => exact ⟨⟨rfl, rfl, rfl, fun _ => rfl⟩, Option.some.inj found⟩
  next => exact ⟨⟨rfl, rfl, rfl, fun _ => rfl⟩, Option.some.inj found⟩
  next =>
    obtain ⟨rfl, same⟩ := Option.ite_none_right_eq_some.mp found
    exact ⟨⟨rfl, rfl, rfl, fun _ => rfl⟩, Option.some.inj same⟩
  next left right =>
    obtain ⟨lengths, same⟩ := Option.ite_none_right_eq_some.mp found
    refine ⟨⟨rfl, rfl, by simpa [parts] using lengths, fun _ => rfl⟩, ?_⟩
    exact (zipWith_types left right).trans (Option.some.inj same)
  next => exact ⟨⟨rfl, rfl, rfl, fun _ => rfl⟩, Option.some.inj found⟩
  next left leftResult right rightResult =>
    obtain ⟨lengths, same⟩ := Option.ite_none_right_eq_some.mp found
    refine ⟨⟨rfl, rfl, by simpa [parts] using lengths, fun _ => rfl⟩, ?_⟩
    rw [parts, parts, List.zipWith_append (by simpa using lengths), zipWith_types]
    exact Option.some.inj same
  next left right =>
    obtain ⟨names, same⟩ := Option.ite_none_right_eq_some.mp found
    have lengths := congrArg List.length names
    refine ⟨⟨rfl, rfl, by simpa [parts] using lengths, fun _ => ?_⟩, ?_⟩
    · rw [rebuild, rebuild, names]
    · rw [← Option.some.inj same, parts, parts, List.zipWith_map, List.zipWith_map]
      rfl
  next =>
    obtain ⟨⟨rfl, lengths⟩, same⟩ := Option.ite_none_right_eq_some.mp found
    exact ⟨⟨rfl, rfl, lengths, fun _ => rfl⟩, Option.some.inj same⟩
  next => cases found

/-- The equations between the parts of two types are set up exactly if these have one shape. -/
theorem decompose_eq_some :
    decompose left right = some equations ↔
      SameShape left right ∧ List.zipWith operandEquation left.parts right.parts = equations := by
  refine ⟨sameShape_of_decompose, ?_⟩
  rintro ⟨⟨leftCompound, rightCompound, lengths, rebuilt⟩, rfl⟩
  have empty : left.rebuild ([] : List (Operand (TypeTerm Unit Unit) Unit)) = right.rebuild [] :=
    rebuilt []
  suffices found : ∃ equations, decompose left right = some equations by
    obtain ⟨equations, found⟩ := found
    rw [found, (sameShape_of_decompose found).2]
  cases left with
  | var name => cases leftCompound
  | record fields =>
    cases right with
    | record others =>
      have whole := rebuilt (record fields).parts
      rw [rebuild_parts rfl, rebuild, record.injEq] at whole
      have names := congrArg (List.map Prod.fst) whole
      rw [List.map_fst_zip (by simpa [parts] using Nat.le_of_eq lengths.symm)] at names
      exact ⟨_, if_pos names⟩
    | _ => simp [rebuild] at empty
  | tagged name operands =>
    cases right with
    | tagged other others =>
      cases empty
      exact ⟨_, if_pos ⟨rfl, lengths⟩⟩
    | _ => simp [rebuild] at empty
  | _ =>
    cases right with
    | var name => cases rightCompound
    | _ => simp_all [decompose, rebuild, parts]

/-- The equations between the parts of two types decide whether the types have the same value. -/
theorem substitute_eq_iff_holds (found : decompose left right = some equations) :
    left.substitute types units = right.substitute types units ↔
      ∀ equation ∈ equations, equation.Holds types units := by
  obtain ⟨shape, rfl⟩ := decompose_eq_some.mp found
  rw [forall_operands shape.lengths]
  constructor
  · intro same
    rw [← parts_substitute _ _ shape.leftCompound, same, parts_substitute _ _ shape.rightCompound]
  · intro same
    rw [substitute_eq _ _ shape.leftCompound, substitute_eq _ _ shape.rightCompound, same,
      shape.rebuild]

/-- Types that are no variables and have the same value have one shape. -/
theorem exists_decompose (leftCompound : left.isVar = false) (rightCompound : right.isVar = false)
    (same : left.substitute types units = right.substitute types units) :
    ∃ equations, decompose left right = some equations := by
  refine ⟨_, decompose_eq_some.mpr ⟨⟨leftCompound, rightCompound, ?_, fun others => ?_⟩, rfl⟩⟩
  · have lengths := congrArg (fun type => type.parts.length) same
    simpa [parts_substitute, leftCompound, rightCompound] using lengths
  · have rebuilt := congrArg (fun type => type.rebuild others) same
    simpa only [rebuild_substitute leftCompound, rebuild_substitute rightCompound] using rebuilt

theorem among_of_decompose (found : decompose left right = some equations) :
    ∀ equation ∈ equations, equation.Among left right := by
  obtain ⟨shape, rfl⟩ := decompose_eq_some.mp found
  intro equation member
  rw [← List.map_uncurry_zip_eq_zipWith] at member
  obtain ⟨⟨first, second⟩, inside, rfl⟩ := List.mem_map.mp member
  obtain ⟨inLeft, inRight⟩ := List.of_mem_zip inside
  cases first with
  | type value =>
    cases second with
    | type other => exact ⟨mem_children.mpr inLeft, mem_children.mpr inRight⟩
    | unit other => trivial
  | unit value =>
    cases second with
    | type other => trivial
    | unit other =>
      exact ⟨(hasUnit_iff shape.leftCompound).mpr (.inr inLeft),
        (hasUnit_iff shape.rightCompound).mpr (.inr inRight)⟩

theorem SameShape.symm (shape : SameShape left right) : SameShape right left :=
  ⟨shape.rightCompound, shape.leftCompound, shape.lengths.symm,
    fun others => (shape.rebuild others).symm⟩

theorem decompose_swap (left right : InferredType) :
    decompose right left = (decompose left right).map (List.map Equation.swap) := by
  have flips (first second : Operand InferredType InferredUnit) :
      (operandEquation first second).swap = operandEquation second first := by
    cases first <;> cases second <;> rfl
  have swapped (lefts rights : List (Operand InferredType InferredUnit)) :
      (List.zipWith operandEquation lefts rights).map Equation.swap =
        List.zipWith operandEquation rights lefts := by
    rw [List.map_zipWith, List.zipWith_comm]
    simp only [flips]
  refine Option.ext fun equations => ?_
  rw [decompose_eq_some, Option.map_eq_some_iff]
  simp only [decompose_eq_some]
  constructor
  · rintro ⟨shape, rfl⟩
    exact ⟨_, ⟨shape.symm, rfl⟩, swapped left.parts right.parts⟩
  · rintro ⟨_, ⟨shape, rfl⟩, rfl⟩
    exact ⟨shape.symm, (swapped left.parts right.parts).symm⟩

end SheetTypes.Unification
