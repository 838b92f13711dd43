import SheetTypes.Proofs.Unification.Equations

/-!
Ways down in types, and clashes. Two types clash if they are no variables and their outermost shapes
differ, so that no values for variables make them equal. Where the equations between the parts of
two types cannot be set up, the types clash, and each equation between types is one between parts
at the end of the same way down.
-/

set_option autoImplicit false

namespace SheetTypes

def Operand.type? {τ υ : Type} : Operand τ υ → Option τ
  | .type value => some value
  | .unit _ => none

namespace TypeTerm

variable {ν υ μ ω : Type} {type part left right : TypeTerm ν υ}

inductive Branch where
  | item (position : Nat)
  | element
  | param (position : Nat)
  | result
  | field (position : Nat)
  | operand (position : Nat)

def branch? : TypeTerm ν υ → Branch → Option (TypeTerm ν υ)
  | .tuple items, .item position => items[position]?
  | .array item, .element => some item
  | .function params _, .param position => params[position]?
  | .function _ result, .result => some result
  | .record fields, .field position => fields[position]?.map Prod.snd
  | .tagged _ operands, .operand position => operands[position]?.bind Operand.type?
  | _, _ => none

def at? (type : TypeTerm ν υ) : List Branch → Option (TypeTerm ν υ)
  | [] => some type
  | branch :: path => (type.branch? branch).bind fun part => part.at? path

/-- Whether two types are no variables and have different outermost shapes: different constructors,
kinds of dates, numbers of items or parameters, names of fields, names or numbers of operands, or a
type as an operand where the other has a unit. -/
inductive Clash : TypeTerm ν υ → TypeTerm ν υ → Prop where
  | constructors {left right : TypeTerm ν υ} (leftCompound : left.isVar = false)
      (rightCompound : right.isVar = false) (differ : left.ctorIdx ≠ right.ctorIdx) :
      Clash left right
  | dates {left right : DateKind} (differ : left ≠ right) : Clash (.date left) (.date right)
  | items {left right : List (TypeTerm ν υ)} (differ : left.length ≠ right.length) :
      Clash (.tuple left) (.tuple right)
  | params {left right : List (TypeTerm ν υ)} {leftResult rightResult : TypeTerm ν υ}
      (differ : left.length ≠ right.length) :
      Clash (.function left leftResult) (.function right rightResult)
  | fields {left right : List (String × TypeTerm ν υ)}
      (differ : left.map Prod.fst ≠ right.map Prod.fst) : Clash (.record left) (.record right)
  | tags {leftName rightName : String} {left right : List (Operand (TypeTerm ν υ) υ)}
      (differ : leftName ≠ rightName ∨ left.length ≠ right.length) :
      Clash (.tagged leftName left) (.tagged rightName right)
  | operands {leftName rightName : String} {left right : List (Operand (TypeTerm ν υ) υ)}
      {position : Nat} {first second : Operand (TypeTerm ν υ) υ}
      (inLeft : left[position]? = some first) (inRight : right[position]? = some second)
      (differ : first.type?.isSome ≠ second.type?.isSome) :
      Clash (.tagged leftName left) (.tagged rightName right)

section Substituting

variable {types : ν → TypeTerm μ ω} {units : υ → ω}

theorem branch?_substitute {branch : Branch} (found : type.branch? branch = some part) :
    (type.substitute types units).branch? branch = some (part.substitute types units) := by
  cases type with
  | tuple items =>
    cases branch with
    | item position =>
      rw [branch?] at found
      rw [substitute_tuple, branch?, List.getElem?_map, found]
      rfl
    | _ => cases found
  | array item =>
    cases branch with
    | element =>
      cases found
      rw [substitute_array, branch?]
    | _ => cases found
  | function params result =>
    cases branch with
    | param position =>
      rw [branch?] at found
      rw [substitute_function, branch?, List.getElem?_map, found]
      rfl
    | result =>
      cases found
      rw [substitute_function, branch?]
    | _ => cases found
  | record fields =>
    cases branch with
    | field position =>
      obtain ⟨field, inside, rfl⟩ := Option.map_eq_some_iff.mp found
      rw [substitute_record, branch?, List.getElem?_map, inside]
      rfl
    | _ => cases found
  | tagged name operands =>
    cases branch with
    | operand position =>
      obtain ⟨operand, inside, isType⟩ := Option.bind_eq_some_iff.mp found
      cases operand with
      | type value =>
        cases isType
        rw [substitute_tagged, branch?, List.getElem?_map, inside]
        rfl
      | unit unit => cases isType
    | _ => cases found
  | _ => cases found

theorem ctorIdx_substitute (compound : type.isVar = false) :
    (type.substitute types units).ctorIdx = type.ctorIdx := by
  cases type with
  | var name => cases compound
  | _ => rfl

/-- Types that clash do so with any values for variables. -/
theorem Clash.substitute (clash : left.Clash right) :
    (left.substitute types units).Clash (right.substitute types units) := by
  cases clash with
  | constructors leftCompound rightCompound differ =>
    refine .constructors (isVar_substitute leftCompound) (isVar_substitute rightCompound) ?_
    rw [ctorIdx_substitute leftCompound, ctorIdx_substitute rightCompound]
    exact differ
  | dates differ => exact .dates differ
  | items differ =>
    rw [substitute_tuple, substitute_tuple]
    exact .items (by simpa using differ)
  | params differ =>
    rw [substitute_function, substitute_function]
    exact .params (by simpa using differ)
  | fields differ =>
    rw [substitute_record, substitute_record]
    refine .fields ?_
    rw [List.map_map, List.map_map]
    exact differ
  | tags differ =>
    rw [substitute_tagged, substitute_tagged]
    exact .tags (by simpa using differ)
  | @operands _ _ _ _ position first second inLeft inRight differ =>
    have kind (operand : Operand (TypeTerm ν υ) υ) :
        (operand.map (substitute types units) units).type?.isSome = operand.type?.isSome := by
      cases operand <;> rfl
    rw [substitute_tagged, substitute_tagged]
    have image {operands : List (Operand (TypeTerm ν υ) υ)} {operand : Operand (TypeTerm ν υ) υ}
        (inside : operands[position]? = some operand) :
        (operands.map (Operand.map (substitute types units) units))[position]? =
          some (operand.map (substitute types units) units) := by
      rw [List.getElem?_map, inside]
      rfl
    refine .operands (image inLeft) (image inRight) ?_
    rw [kind, kind]
    exact differ

end Substituting

end TypeTerm

namespace Unification

variable {left right : InferredType} {equations : List Equation}

/-- Types that are no variables and have no equations between their parts clash. -/
theorem clash_of_decompose (leftCompound : left.isVar = false) (rightCompound : right.isVar = false)
    (none : decompose left right = none) : left.Clash right := by
  have apart (differ : left.ctorIdx ≠ right.ctorIdx) : left.Clash right :=
    .constructors leftCompound rightCompound differ
  cases left with
  | var name => cases leftCompound
  | number unit =>
    cases right with
    | number other => cases none
    | _ => exact apart (by simp [TypeTerm.ctorIdx])
  | text =>
    cases right with
    | text => cases none
    | _ => exact apart (by simp [TypeTerm.ctorIdx])
  | boolean =>
    cases right with
    | boolean => cases none
    | _ => exact apart (by simp [TypeTerm.ctorIdx])
  | date kind =>
    cases right with
    | date other => exact .dates (by simpa [decompose] using none)
    | _ => exact apart (by simp [TypeTerm.ctorIdx])
  | tuple items =>
    cases right with
    | tuple others => exact .items (by simpa [decompose] using none)
    | _ => exact apart (by simp [TypeTerm.ctorIdx])
  | array item =>
    cases right with
    | array other => cases none
    | _ => exact apart (by simp [TypeTerm.ctorIdx])
  | function params result =>
    cases right with
    | function others otherResult => exact .params (by simpa [decompose] using none)
    | _ => exact apart (by simp [TypeTerm.ctorIdx])
  | record fields =>
    cases right with
    | record others => exact .fields (by simpa [decompose] using none)
    | _ => exact apart (by simp [TypeTerm.ctorIdx])
  | tagged name operands =>
    cases right with
    | tagged other others =>
      exact .tags (not_and_or.mp (by simpa [decompose] using none))
    | _ => exact apart (by simp [TypeTerm.ctorIdx])

/-- How an equation stems from two types: it is one between the types that one step down leads to
in both, or can never hold because the types clash. -/
def Equation.Located (left right : InferredType) : Equation → Prop
  | .types first second =>
    ∃ branch, left.branch? branch = some first ∧ right.branch? branch = some second
  | .units _ _ => True
  | .clash => left.Clash right

private theorem exists_position {α : Type} {combine : α → α → Equation} {lefts rights : List α}
    {equation : Equation} (member : equation ∈ List.zipWith combine lefts rights) :
    ∃ (position : Nat) (left right : α), lefts[position]? = some left ∧
      rights[position]? = some right ∧ combine left right = equation := by
  obtain ⟨position, found⟩ := List.mem_iff_getElem?.mp member
  exact ⟨position, List.getElem?_zipWith_eq_some.mp found⟩

private theorem located_types {lefts rights : List InferredType}
    (branch : Nat → TypeTerm.Branch)
    (leftParts : ∀ position, left.branch? (branch position) = lefts[position]?)
    (rightParts : ∀ position, right.branch? (branch position) = rights[position]?) :
    ∀ equation ∈ List.zipWith Equation.types lefts rights, equation.Located left right := by
  intro equation member
  obtain ⟨position, first, second, inLeft, inRight, rfl⟩ := exists_position member
  exact ⟨branch position, (leftParts position).trans inLeft, (rightParts position).trans inRight⟩

private theorem located_operands {leftName rightName : String}
    {lefts rights : List (Operand InferredType InferredUnit)} :
    ∀ equation ∈ List.zipWith operandEquation lefts rights,
      equation.Located (.tagged leftName lefts) (.tagged rightName rights) := by
  intro equation member
  obtain ⟨position, first, second, inLeft, inRight, rfl⟩ := exists_position member
  cases first with
  | type value =>
    cases second with
    | type other =>
      refine ⟨.operand position, ?_, ?_⟩
      · rw [TypeTerm.branch?, inLeft]
        rfl
      · rw [TypeTerm.branch?, inRight]
        rfl
    | unit other => exact .operands inLeft inRight (by simp [Operand.type?])
  | unit value =>
    cases second with
    | type other => exact .operands inLeft inRight (by simp [Operand.type?])
    | unit other => trivial

theorem located_of_decompose (found : decompose left right = some equations) :
    ∀ equation ∈ equations, equation.Located left right := by
  have fields (fields : List (String × InferredType)) (position : Nat) :
      TypeTerm.branch? (.record fields) (.field position) =
        (fields.map Prod.snd)[position]? := List.getElem?_map.symm
  unfold decompose at found
  split at found
  next =>
    cases found
    exact List.forall_mem_singleton.mpr trivial
  next =>
    cases found
    exact List.forall_mem_nil _
  next =>
    cases found
    exact List.forall_mem_nil _
  next =>
    split at found
    next =>
      cases found
      exact List.forall_mem_nil _
    next => cases found
  next =>
    split at found
    next =>
      cases found
      exact located_types .item (fun _ => rfl) fun _ => rfl
    next => cases found
  next =>
    cases found
    exact List.forall_mem_singleton.mpr ⟨.element, rfl, rfl⟩
  next =>
    split at found
    next =>
      cases found
      refine List.forall_mem_append.mpr ⟨?_, List.forall_mem_singleton.mpr ⟨.result, rfl, rfl⟩⟩
      exact located_types .param (fun _ => rfl) fun _ => rfl
    next => cases found
  next left right =>
    split at found
    next =>
      cases found
      exact located_types .field (fields left) (fields right)
    next => cases found
  next =>
    split at found
    next =>
      cases found
      exact located_operands
    next => cases found
  next => cases found

end Unification

end SheetTypes
