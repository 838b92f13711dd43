import SheetTypes.Proofs.Template.Grammar
import SheetTypes.Proofs.Template.Reading

/-!
Reading units. What is read is what the grammar derives from the tokens that are used up, and
whatever it derives is read, if no further factor follows. A factor is looked at once: the next
token tells whether an exponent or another factor comes.
-/

set_option autoImplicit false

namespace SheetTypes

theorem totalPower_append (base : UnitBase) (left right : List (UnitBase × Int)) :
    totalPower base (left ++ right) = totalPower base left + totalPower base right := by
  induction left with
  | nil => simp [totalPower]
  | cons power left ih =>
    obtain ⟨other, number⟩ := power
    rw [List.cons_append, totalPower, totalPower, ih]
    omega

theorem totalPower_single (base other : UnitBase) (number : Int) :
    totalPower base [(other, number)] = if other = base then number else 0 := by
  simp [totalPower]

namespace UnitTemplate

variable {left result right : UnitTemplate} {number : Int}

theorem ext_exponentOf (same : ∀ base, left.exponentOf base = right.exponentOf base) :
    left = right := by
  obtain ⟨leftNames, leftVars⟩ := left
  obtain ⟨rightNames, rightVars⟩ := right
  have sameNames : leftNames = rightNames :=
    PowerProduct.ext_exponent fun text => same (.name text)
  have sameVars : leftVars = rightVars := PowerProduct.ext_exponent fun text => same (.var text)
  rw [sameNames, sameVars]

theorem exponentOf_within (unit : UnitTemplate) (base : UnitBase) :
    WithinLimit (unit.exponentOf base) := by
  cases base with
  | name text => exact unit.names.exponent_within text
  | var text => exact unit.vars.exponent_within text

@[simp]
theorem exponentOf_scalar (base : UnitBase) : exponentOf .scalar base = 0 := by
  cases base with
  | name text => rfl
  | var text => rfl

theorem checkedMultiply_eq_some :
    left.checkedMultiply right = some result ↔
      ∀ base, result.exponentOf base = left.exponentOf base + right.exponentOf base := by
  simp only [UnitTerm.checkedMultiply, Option.bind_eq_bind, Option.bind_eq_some_iff,
    Option.pure_def, Option.some.injEq, PowerProduct.checkedMultiply_eq_some]
  constructor
  · rintro ⟨names, namesSum, vars, varsSum, rfl⟩ base
    cases base with
    | name text => exact namesSum text
    | var text => exact varsSum text
  · intro sums
    exact ⟨result.names, fun text => sums (.name text), result.vars, fun text => sums (.var text),
      rfl⟩

theorem checkedRaise_eq_some {unit : UnitTemplate} :
    unit.checkedRaise number = some result ↔
      ∀ base, result.exponentOf base = unit.exponentOf base * number := by
  simp only [UnitTerm.checkedRaise, Option.bind_eq_bind, Option.bind_eq_some_iff,
    Option.pure_def, Option.some.injEq, PowerProduct.checkedRaise_eq_some]
  constructor
  · rintro ⟨names, namesMultiple, vars, varsMultiple, rfl⟩ base
    cases base with
    | name text => exact namesMultiple text
    | var text => exact varsMultiple text
  · intro multiples
    exact ⟨result.names, fun text => multiples (.name text), result.vars,
      fun text => multiples (.var text), rfl⟩

theorem exists_multiple {unit : UnitTemplate}
    (within : ∀ base, WithinLimit (unit.exponentOf base * number)) :
    ∃ result : UnitTemplate, ∀ base, result.exponentOf base = unit.exponentOf base * number := by
  refine ⟨unit.raise number, fun base => ?_⟩
  rw [← clampToLimit_of_within (within base)]
  cases base with
  | name text => exact PowerProduct.exponent_raise unit.names number text
  | var text => exact PowerProduct.exponent_raise unit.vars number text

theorem exists_sum (within : ∀ base, WithinLimit (left.exponentOf base + right.exponentOf base)) :
    ∃ result : UnitTemplate,
      ∀ base, result.exponentOf base = left.exponentOf base + right.exponentOf base := by
  refine ⟨left.multiply right, fun base => ?_⟩
  rw [← clampToLimit_of_within (within base)]
  cases base with
  | name text => exact PowerProduct.exponent_multiply left.names right.names text
  | var text => exact PowerProduct.exponent_multiply left.vars right.vars text

end UnitTemplate

def UnitBase.unit : UnitBase → UnitTemplate
  | .name text => .named text
  | .var text => .ofVar text

theorem UnitBase.exponentOf_unit (base query : UnitBase) :
    UnitTemplate.exponentOf base.unit query = if base = query then 1 else 0 := by
  cases base with
  | name text =>
    cases query with
    | name other =>
      by_cases same : other = text
      · simp [unit, UnitTerm.named, UnitTerm.ofGround, UnitTemplate.exponentOf, same]
      · have different : UnitBase.name text ≠ .name other := fun equal => by
          cases equal
          exact same rfl
        rw [if_neg different]
        exact PowerProduct.exponent_ofKey_of_ne same
    | var other => exact PowerProduct.exponent_one other
  | var text =>
    cases query with
    | name other => exact PowerProduct.exponent_one other
    | var other =>
      by_cases same : other = text
      · simp [unit, UnitTerm.ofVar, UnitTemplate.exponentOf, same]
      · have different : UnitBase.var text ≠ .var other := fun equal => by
          cases equal
          exact same rfl
        rw [if_neg different]
        exact PowerProduct.exponent_ofKey_of_ne same

theorem IsProduct.nil : IsProduct [] (UnitTerm.scalar : UnitTemplate) where
  exponents base := by rw [UnitTemplate.exponentOf_scalar, totalPower]
  partials first isFirst base := by
    rw [List.prefix_nil.mp isFirst, totalPower]
    decide

variable {next unit : UnitTemplate}

theorem IsProduct.snoc {powers : List (UnitBase × Int)} {power : UnitBase × Int}
    (product : IsProduct powers unit)
    (sums : ∀ base, next.exponentOf base = unit.exponentOf base + totalPower base [power]) :
    IsProduct (powers ++ [power]) next := by
  have exponents (base : UnitBase) :
      next.exponentOf base = totalPower base (powers ++ [power]) := by
    rw [sums, product.exponents, totalPower_append]
  refine ⟨exponents, fun first isFirst base => ?_⟩
  rcases List.prefix_concat_iff.mp isFirst with whole | before
  · rw [whole, ← exponents]
    exact next.exponentOf_within base
  · exact product.partials first before base

/-- Of the factors of a product, the first ones have a product too. -/
theorem IsProduct.exists_first {first others : List (UnitBase × Int)} {power : UnitBase × Int}
    {result : UnitTemplate} (product : IsProduct first unit)
    (whole : IsProduct (first ++ power :: others) result)
    (single : ∀ base, next.exponentOf base = totalPower base [power]) :
    ∃ middle : UnitTemplate,
      ∀ base, middle.exponentOf base = unit.exponentOf base + next.exponentOf base := by
  refine UnitTemplate.exists_sum fun base => ?_
  rw [product.exponents, single, ← totalPower_append]
  exact whole.partials (first ++ [power]) ⟨others, by simp⟩ base

namespace Reading

open Grammar

variable {expected : Expectation} {list : List Token} {marks : List Symbol} {number sign : Int}
  {origin : UnitBase} {others powers : List (UnitBase × Int)} {steps : Nat}

variable {stop : Nat} {tokens rest used : List LocatedToken}

theorem unexpected_ne_ok {α : Type} {result : α} :
    unexpected stop expected tokens ≠ .ok result := by
  simp [unexpected]

variable {unit result : UnitTemplate}

theorem base_reads :
    Reads stop tokens (fun list unit => ∃ origin, Base list origin ∧ unit = origin.unit)
      (base stop tokens) := by
  unfold base
  split
  next text offset tail => exact .cons (.pure ⟨.name text, .name text, rfl⟩)
  next offset tail =>
    refine .cons (name_reads.bind fun list text rest named _ => .pure ?_)
    rw [named]
    exact ⟨.var text, .var text, rfl⟩
  next => exact .unexpected

theorem base_takes (derived : Base list origin) : Takes (base stop) marks list origin.unit := by
  cases derived with
  | name text => exact .cons fun _ => .nil fun _ _ => rfl
  | var text => exact .cons fun _ => .cons fun _ => .nil fun _ _ => rfl

theorem power_reads :
    Reads stop tokens (fun list result => ∃ value : Nat, list = [.integer value] ∧
      ∀ base, result.exponentOf base = unit.exponentOf base * (sign * value))
      (power stop unit sign tokens) := by
  unfold power
  split
  next value offset tail =>
    split
    next raised found =>
      exact .cons (.pure ⟨value, rfl, UnitTemplate.checkedRaise_eq_some.mp found⟩)
    next => exact .fail rfl
  next => exact .unexpected

theorem power_complete {value offset : Nat}
    (exponents : ∀ base, result.exponentOf base = unit.exponentOf base * (sign * value)) :
    power stop unit sign (⟨.integer value, offset⟩ :: rest) = .ok (result, rest) := by
  unfold power
  dsimp only
  rw [UnitTemplate.checkedRaise_eq_some.mpr exponents]

theorem exponentOf_unit_mul (base : UnitBase) :
    UnitTemplate.exponentOf origin.unit base * number = totalPower base [(origin, number)] := by
  rw [UnitBase.exponentOf_unit, totalPower_single]
  split
  · exact Int.one_mul number
  · exact Int.zero_mul number

theorem within_of_unit
    (exponents : ∀ base, result.exponentOf base =
      UnitTemplate.exponentOf origin.unit base * number) : WithinLimit number := by
  have within := result.exponentOf_within origin
  rwa [exponents, UnitBase.exponentOf_unit, if_pos rfl, Int.one_mul] at within

def DerivesFactor (tokens : List Token) (unit : UnitTemplate) : Prop :=
  ∃ power, Factor tokens power ∧ ∀ base, unit.exponentOf base = totalPower base [power]

theorem factor_reads : Reads stop tokens DerivesFactor (factor stop tokens) := by
  unfold factor
  refine base_reads.bind fun list unit rest based _ => ?_
  obtain ⟨origin, derived, rfl⟩ := based
  dsimp only
  split
  next caret minus tail =>
    refine .cons (.cons (power_reads.mono ?_))
    rintro _ result ⟨value, rfl, exponents⟩
    have within := within_of_unit exponents
    rw [Int.neg_mul, Int.one_mul] at exponents within
    exact ⟨(origin, -value), .mk derived (.below value (by have := within.1; omega)),
      fun base => (exponents base).trans (exponentOf_unit_mul base)⟩
  next caret tail _ =>
    refine .cons (power_reads.mono ?_)
    rintro _ result ⟨value, rfl, exponents⟩
    have within := within_of_unit exponents
    rw [Int.one_mul] at exponents within
    exact ⟨(origin, value), .mk derived (.above value within.2),
      fun base => (exponents base).trans (exponentOf_unit_mul base)⟩
  next =>
    exact .pure ⟨(origin, 1), .mk derived .plain,
      fun base => (Int.mul_one _).symm.trans (exponentOf_unit_mul base)⟩

theorem factor_takes (derived : Factor list (origin, number))
    (exponents : ∀ base, unit.exponentOf base = totalPower base [(origin, number)]) :
    Takes (factor stop) [.caret] list unit := by
  have multiples (base : UnitBase) :
      unit.exponentOf base = UnitTemplate.exponentOf origin.unit base * number :=
    (exponents base).trans (exponentOf_unit_mul base).symm
  cases derived with
  | mk based powered =>
    refine (base_takes based).bind ?_ fun mark listed => (List.not_mem_nil listed).elim
    cases powered with
    | plain =>
      refine .nil fun rest ends => ?_
      have same : unit = origin.unit :=
        UnitTemplate.ext_exponentOf fun base => (multiples base).trans (Int.mul_one _)
      dsimp only
      split
      next => exact absurd rfl (ends .caret (List.mem_singleton_self _) _ _)
      next => exact absurd rfl (ends .caret (List.mem_singleton_self _) _ _)
      next => rw [same]; rfl
    | above value within =>
      exact .cons fun _ => .cons fun _ => .nil fun _ _ => power_complete (by simpa using multiples)
    | below value within =>
      refine .cons fun _ => .cons fun _ => .cons fun _ => .nil fun _ _ => ?_
      exact power_complete (by simpa using multiples)

private theorem within_mul_sign (isSign : sign = 1 ∨ sign = -1) (unit : UnitTemplate)
    (base : UnitBase) : WithinLimit (unit.exponentOf base * sign) := by
  have within := unit.exponentOf_within base
  unfold WithinLimit at within ⊢
  rcases isSign with rfl | rfl <;> omega

private theorem checkedMultiply_signed (isSign : sign = 1 ∨ sign = -1) :
    (next.checkedRaise sign >>= unit.checkedMultiply) = some result ↔
      ∀ base, result.exponentOf base = unit.exponentOf base + next.exponentOf base * sign := by
  obtain ⟨other, multiples⟩ := UnitTemplate.exists_multiple (within_mul_sign isSign next)
  rw [UnitTemplate.checkedRaise_eq_some.mpr multiples]
  simp only [← multiples]
  exact UnitTemplate.checkedMultiply_eq_some

private theorem single_mul
    (single : ∀ base, next.exponentOf base = totalPower base [(origin, number)]) (sign : Int)
    (base : UnitBase) :
    next.exponentOf base * sign = totalPower base [(origin, number * sign)] := by
  rw [single, ← exponentOf_unit_mul, ← exponentOf_unit_mul, Int.mul_assoc]

/-- The product is complained about where the factor starts. -/
theorem nextFactor_reads (isSign : sign = 1 ∨ sign = -1) (product : IsProduct powers unit) :
    Reads stop tokens (fun list result => ∃ origin number, Factor list (origin, number) ∧
      IsProduct (powers ++ [(origin, number * sign)]) result)
      (nextFactor stop unit sign tokens) := by
  have first : Reads stop tokens DerivesFactor (factor stop tokens) := factor_reads
  unfold nextFactor
  generalize factor stop tokens = read at first
  cases read with
  | error error => exact ⟨rfl, first.ends⟩
  | ok found =>
    obtain ⟨used, split, ⟨origin, number⟩, derived, single⟩ := first.ends
    rw [except_ok_bind]
    dsimp only
    split
    next made multiplied =>
      refine ⟨rfl, used, split, origin, number, derived, product.snoc fun base => ?_⟩
      rw [(checkedMultiply_signed isSign).mp multiplied, single_mul single]
    next => exact .fail rfl

private theorem exists_single (derived : Factor list (origin, number)) :
    ∃ next : UnitTemplate, ∀ base, next.exponentOf base = totalPower base [(origin, number)] := by
  have within : WithinLimit number := by
    unfold WithinLimit exponentLimit
    cases derived with
    | mk _ powered =>
      cases powered with
      | plain => omega
      | above value limited => unfold exponentLimit at limited; omega
      | below value limited => unfold exponentLimit at limited; omega
  have fits (base : UnitBase) :
      WithinLimit (UnitTemplate.exponentOf origin.unit base * number) := by
    rw [UnitBase.exponentOf_unit]
    split
    · rwa [Int.one_mul]
    · rw [Int.zero_mul]
      decide
  obtain ⟨next, multiples⟩ := UnitTemplate.exists_multiple fits
  exact ⟨next, fun base => (multiples base).trans (exponentOf_unit_mul base)⟩

theorem nextFactor_takes (isSign : sign = 1 ∨ sign = -1) (derived : Factor list (origin, number))
    {whole : UnitTemplate} (product : IsProduct powers unit)
    (fits : IsProduct (powers ++ (origin, number * sign) :: others) whole) :
    ∃ result, Takes (nextFactor stop unit sign) [.caret] list result ∧
      IsProduct (powers ++ [(origin, number * sign)]) result := by
  obtain ⟨next, single⟩ := exists_single derived
  obtain ⟨signed, multiples⟩ := UnitTemplate.exists_multiple (within_mul_sign isSign next)
  have signedSingle (base : UnitBase) :
      signed.exponentOf base = totalPower base [(origin, number * sign)] := by
    rw [multiples, single_mul single]
  obtain ⟨result, sums⟩ := product.exists_first fits signedSingle
  refine ⟨result, ?_, product.snoc fun base => by rw [sums, signedSingle]⟩
  intro used rest same ends
  refine except_bind_eq_ok.mpr ⟨_, factor_takes derived single used rest same ends, ?_⟩
  dsimp only
  rw [(checkedMultiply_signed isSign).mpr fun base => by rw [sums, multiples]]
  rfl

theorem factorsFrom_alike {turns : Nat} (product : IsProduct powers unit)
    (same : SameTurns tokens.length steps turns) :
    ReadAlike stop tokens (fun list result => ∃ others, Factors list others ∧
      IsProduct (powers ++ others) result)
      (factorsFrom stop steps unit tokens) (factorsFrom stop turns unit tokens) := by
  fun_induction factorsFrom stop steps unit tokens generalizing powers turns with
  | case1 steps unit offset tail ih =>
    cases turns with
    | zero => simp [SameTurns] at same
    | succ turns =>
      refine .cons ((nextFactor_reads (.inl rfl) product).bind fun list middle rest factor short =>
        ?_)
      obtain ⟨origin, number, derived, middleProduct⟩ := factor
      refine (ih middle rest middleProduct (same.next (Nat.lt_succ_of_le short))).mono ?_
      rintro more result ⟨others, factors, whole⟩
      exact ⟨(origin, number) :: others, .times derived factors, by simpa using whole⟩
  | case2 steps unit offset tail ih =>
    cases turns with
    | zero => simp [SameTurns] at same
    | succ turns =>
      refine .cons ((nextFactor_reads (.inr rfl) product).bind fun list middle rest factor short =>
        ?_)
      obtain ⟨origin, number, derived, middleProduct⟩ := factor
      refine (ih middle rest middleProduct (same.next (Nat.lt_succ_of_le short))).mono ?_
      rintro more result ⟨others, factors, whole⟩
      exact ⟨(origin, -number) :: others, .divided derived factors, by simpa using whole⟩
  | case3 steps unit tokens notStar notSlash =>
    have stops : factorsFrom stop turns unit tokens = .ok (unit, tokens) := by
      unfold factorsFrom
      split
      next =>
        obtain ⟨fewer, goesOn⟩ := same.exists_succ
        exact (notStar fewer _ _ goesOn rfl).elim
      next =>
        obtain ⟨fewer, goesOn⟩ := same.exists_succ
        exact (notSlash fewer _ _ goesOn rfl).elim
      next => rfl
    rw [stops]
    exact .pure ⟨[], .nil, by simpa using product⟩

private theorem caret_apart (factors : Factors list others) :
    ∀ mark ∈ [Symbol.caret], list.head? ≠ some (.symbol mark) ∧
      (list = [] → mark ∈ [Symbol.star, .slash, .caret]) := by
  cases factors <;> simp

theorem factorsFrom_takes (derived : Factors list others) (product : IsProduct powers unit)
    (whole : IsProduct (powers ++ others) result) :
    ∀ turns, list.length ≤ turns →
      Takes (factorsFrom stop turns unit) [.star, .slash, .caret] list result := by
  induction derived generalizing unit powers with
  | nil =>
    refine fun turns _ => .nil fun rest ends => ?_
    have equal : unit = result := by
      refine UnitTemplate.ext_exponentOf fun base => ?_
      rw [product.exponents, whole.exponents, List.append_nil]
    unfold factorsFrom
    split
    next => exact absurd rfl (ends .star (by simp) _ _)
    next => exact absurd rfl (ends .slash (by simp) _ _)
    next => rw [equal]
  | times factor factors ih =>
    rintro (_ | turns) enough
    · simp at enough
    rw [List.length_cons, List.length_append] at enough
    obtain ⟨middle, takes, middleProduct⟩ :=
      nextFactor_takes (.inl rfl) factor product (by simpa using whole)
    have later := ih middleProduct (by simpa using whole) turns (by omega)
    exact .cons fun _ => takes.bind later (caret_apart factors)
  | divided factor factors ih =>
    rintro (_ | turns) enough
    · simp at enough
    rw [List.length_cons, List.length_append] at enough
    obtain ⟨middle, takes, middleProduct⟩ :=
      nextFactor_takes (.inr rfl) factor product (by simpa using whole)
    have later := ih middleProduct (by simpa using whole) turns (by omega)
    exact .cons fun _ => takes.bind later (caret_apart factors)

/-- A unit that is read is derived from the tokens that are used up. -/
theorem unit_reads : Reads stop tokens DerivesUnit (Reading.unit stop tokens) := by
  unfold Reading.unit
  split
  next offset tail =>
    refine .cons ((factorsFrom_alike .nil (.inl rfl)).mono ?_)
    rintro list result ⟨powers, factors, product⟩
    exact ⟨powers, .one factors, product⟩
  next =>
    refine factor_reads.bind fun list first rest factor _ => ?_
    obtain ⟨power, derived, single⟩ := factor
    have start : IsProduct [power] first := IsProduct.nil.snoc fun base => by simp [single]
    refine (factorsFrom_alike start (.inl rfl)).mono ?_
    rintro more result ⟨powers, factors, product⟩
    exact ⟨power :: powers, .factor derived factors, product⟩

/-- A unit that is derived from tokens is read, if no further factor follows. -/
theorem unit_takes (derived : DerivesUnit list result) :
    Takes (Reading.unit stop) [.star, .slash, .caret] list result := by
  obtain ⟨powers, derived, product⟩ := derived
  cases derived with
  | one factors => exact .cons fun _ => .of_turns (factorsFrom_takes factors .nil product)
  | @factor firstTokens restTokens power _ first factors =>
    intro used rest same ends
    unfold Reading.unit
    split
    next offset tail starts =>
      have tokens := congrArg (List.map LocatedToken.token) starts
      rw [List.map_append, same] at tokens
      cases first with
      | mk based _ => cases based <;> simp at tokens
    next =>
      obtain ⟨start, single⟩ := exists_single first
      have begun : IsProduct [power] start := IsProduct.nil.snoc fun base => by simp [single]
      exact (factor_takes first single).bind (.of_turns (factorsFrom_takes factors begun product))
        (caret_apart factors) used rest same ends

end Reading

end SheetTypes
