import SheetTypes.Proofs.Template.Lexing
import SheetTypes.Proofs.Template.TypeReading

/-!
The text of a template is read back as that template. Templates for which this holds are those
whose names can be written as words and whose tuples have at least two items; every template that is
read from a text is one of them.
-/

set_option autoImplicit false

namespace SheetTypes

open Grammar Token

def UnitTemplate.Spellable (unit : UnitTemplate) : Prop :=
  (∀ name ∈ unit.names.keys, Text.isWord name = true) ∧
    ∀ name ∈ unit.vars.keys, Text.isWord name = true

instance (unit : UnitTemplate) : Decidable unit.Spellable := inferInstanceAs (Decidable (_ ∧ _))

/-- A template whose variables and units are words and whose tuples have several items. The names of
fields and of tagged types are free. -/
inductive Template.WellFormed : Template → Prop
  | var {name : String} : Text.isWord name = true → WellFormed (.var name)
  | number {unit : UnitTemplate} : unit.Spellable → WellFormed (.number unit)
  | text : WellFormed .text
  | boolean : WellFormed .boolean
  | date (kind : DateKind) : WellFormed (.date kind)
  | tuple {items : List Template} : 2 ≤ items.length → (∀ item ∈ items, WellFormed item) →
      WellFormed (.tuple items)
  | array {item : Template} : WellFormed item → WellFormed (.array item)
  | function {params : List Template} {result : Template} :
      (∀ param ∈ params, WellFormed param) → WellFormed result →
      WellFormed (.function params result)
  | record {fields : List (String × Template)} : (∀ field ∈ fields, WellFormed field.2) →
      WellFormed (.record fields)
  | tagged {name : String} {operands : List (Operand Template UnitTemplate)} :
      (∀ value, .type value ∈ operands → WellFormed value) →
      (∀ unit : UnitTemplate, .unit unit ∈ operands → unit.Spellable) →
      WellFormed (.tagged name operands)

def UnitBase.label : UnitBase → String
  | .name text => text
  | .var text => text

def UnitBase.text : UnitBase → String
  | .name text => text
  | .var text => unitVariableText text

namespace UnitTemplate

def powers (unit : UnitTemplate) : List (UnitBase × Int) :=
  unit.names.toList.map (fun power => (.name power.1, power.2)) ++
    unit.vars.toList.map fun power => (.var power.1, power.2)

theorem render_eq (unit : UnitTemplate) :
    unit.render = productText (unit.powers.map fun power => (power.1.text, power.2)) := by
  simp [render, UnitTerm.renderWith, powers, UnitBase.text, Function.comp_def]

theorem mem_powers {unit : UnitTemplate} {base : UnitBase} {number : Int} :
    (base, number) ∈ unit.powers ↔ unit.exponentOf base = number ∧ number ≠ 0 := by
  cases base <;> simp [powers, exponentOf, PowerProduct.mem_toList]

theorem powers_nodup (unit : UnitTemplate) : (unit.powers.map Prod.fst).Nodup := by
  have split : unit.powers.map Prod.fst = (unit.names.toList.map Prod.fst).map .name ++
      (unit.vars.toList.map Prod.fst).map .var := by
    simp [powers, Function.comp_def]
  rw [split, List.nodup_append]
  refine ⟨?_, ?_, ?_⟩
  · refine List.pairwise_map.mpr (unit.names.toList_nodup.imp fun different same => ?_)
    exact different (UnitBase.name.inj same)
  · refine List.pairwise_map.mpr (unit.vars.toList_nodup.imp fun different same => ?_)
    exact different (UnitBase.var.inj same)
  · intro left leftMember right rightMember same
    obtain ⟨_, _, rfl⟩ := List.mem_map.mp leftMember
    obtain ⟨_, _, rfl⟩ := List.mem_map.mp rightMember
    cases same

theorem eq_scalar {unit : UnitTemplate} (scalar : unit.isScalar = true) : unit = .scalar := by
  obtain ⟨names, vars⟩ := unit
  simp only [UnitTerm.isScalar, Bool.and_eq_true, PowerProduct.isOne_iff] at scalar
  rw [UnitTerm.scalar, scalar.1, scalar.2]

theorem Spellable.isWord {unit : UnitTemplate} (spellable : unit.Spellable) {base : UnitBase}
    (occurs : unit.exponentOf base ≠ 0) : Text.isWord base.label = true := by
  cases base with
  | name text => exact spellable.1 text (PowerProduct.mem_keys.mpr occurs)
  | var text => exact spellable.2 text (PowerProduct.mem_keys.mpr occurs)

end UnitTemplate

variable {base : UnitBase} {list : List Token} {powers : List (UnitBase × Int)}
  {template : Template} {text : String} {unit : UnitTemplate}

theorem totalPower_of_not_mem (absent : base ∉ powers.map Prod.fst) :
    totalPower base powers = 0 := by
  induction powers with
  | nil => rfl
  | cons power powers ih =>
    rw [List.map_cons, List.mem_cons, not_or] at absent
    rw [totalPower, if_neg (Ne.symm absent.1), ih absent.2, Int.zero_add]

theorem totalPower_of_mem {number : Int} (distinct : (powers.map Prod.fst).Nodup)
    (member : (base, number) ∈ powers) : totalPower base powers = number := by
  induction powers with
  | nil => cases member
  | cons power powers ih =>
    rw [List.map_cons, List.nodup_cons] at distinct
    rcases List.mem_cons.mp member with rfl | later
    · rw [totalPower, if_pos rfl, totalPower_of_not_mem distinct.1, Int.add_zero]
    · have different : power.1 ≠ base := by
        rintro rfl
        exact distinct.1 (List.mem_map.mpr ⟨_, later, rfl⟩)
      rw [totalPower, if_neg different, ih distinct.2 later, Int.zero_add]

/-- A unit is the product of its powers in any order. -/
theorem IsProduct.of_mem (distinct : (powers.map Prod.fst).Nodup)
    (same : ∀ power, power ∈ powers ↔ power ∈ unit.powers) : IsProduct powers unit where
  exponents base := by
    by_cases zero : unit.exponentOf base = 0
    · rw [zero, totalPower_of_not_mem]
      intro member
      obtain ⟨⟨other, number⟩, found, rfl⟩ := List.mem_map.mp member
      obtain ⟨here, nonzero⟩ := UnitTemplate.mem_powers.mp ((same _).mp found)
      exact nonzero (here.symm.trans zero)
    · exact (totalPower_of_mem distinct
        ((same _).mpr (UnitTemplate.mem_powers.mpr ⟨rfl, zero⟩))).symm
  partials first isFirst base := by
    by_cases member : base ∈ first.map Prod.fst
    · obtain ⟨⟨other, number⟩, found, rfl⟩ := List.mem_map.mp member
      have here := UnitTemplate.mem_powers.mp ((same _).mp (isFirst.subset found))
      rw [totalPower_of_mem ((isFirst.sublist.map _).nodup distinct) found, ← here.1]
      exact unit.exponentOf_within other
    · rw [totalPower_of_not_mem member]
      decide

/-! ### The text of a unit -/

/-- A text that is read as the given tokens wherever it does not run into a word or a number. -/
def Spells (text : String) (list : List Token) : Prop :=
  ∀ rest tokens, Apart rest → Lexes rest tokens → Lexes (text.toList ++ rest) (list ++ tokens)

theorem Spells.word (isWord : Text.isWord text = true) : Spells text [.word text] :=
  fun _ _ apart lexes => .word isWord apart lexes

/-- A marker and a name behind it, with a blank between them. -/
theorem Spells.marked {marker name : String} (nonempty : marker ≠ "")
    (continues : ∀ c ∈ marker.toList, Text.continuesWord c = true)
    (isWord : Text.isWord name = true)
    (same : text.toList = '@' :: marker.toList ++ ' ' :: name.toList) :
    Spells text [.marker marker, .word name] := by
  intro rest tokens apart lexes
  rw [same, List.append_assoc]
  refine .marker nonempty continues (.cons _ (by decide)) ?_
  exact .blank (by decide) (.word isWord apart lexes)

/-- A sign and a blank between two texts. -/
theorem Spells.sign {sign other : String} {c : Char} {mark : Symbol} {more : List Token}
    (first : Spells text list) (spelled : sign.toList = [c, ' '])
    (isSign : Symbol.ofChar? c = some mark) (apart : Text.continuesWord c = false)
    (others : Spells other more) :
    Spells (text ++ sign ++ other) (list ++ .symbol mark :: more) := by
  intro rest tokens ends lexes
  have behind := others rest tokens ends lexes
  simpa [spelled] using first _ _ (.cons _ apart) (.sign isSign (.blank (by decide) behind))

theorem UnitBase.spelled (isWord : Text.isWord base.label = true) :
    ∃ list, Base list base ∧ Spells base.text list := by
  cases base with
  | name text => exact ⟨_, .name text, .word isWord⟩
  | var text =>
    have continues : ∀ c ∈ "UNITVAR".toList, Text.continuesWord c = true :=
      List.all_eq_true.mp (by decide +kernel)
    refine ⟨_, .var text, .marked (by decide) continues isWord ?_⟩
    simp [UnitBase.text, unitVariableText]

theorem factor_spelled {number : Nat} (isWord : Text.isWord base.label = true)
    (within : (number : Int) ≤ exponentLimit) :
    ∃ list, Factor list (base, (number : Int)) ∧ Spells (factorText base.text number) list := by
  obtain ⟨list, derived, spells⟩ := base.spelled isWord
  unfold factorText
  split
  next one =>
    subst one
    refine ⟨list ++ [], .mk derived .plain, ?_⟩
    rwa [List.append_nil]
  next =>
    refine ⟨list ++ [.symbol .caret, .integer number], .mk derived (.above number within), ?_⟩
    intro rest tokens apart lexes
    have small : number ≤ integerLimit := by
      unfold exponentLimit at within
      unfold integerLimit
      omega
    have behind : Lexes ('^' :: ((toString number).toList ++ rest))
        (.symbol .caret :: .integer number :: tokens) :=
      .sign rfl (.integer small apart lexes)
    simpa using spells _ _ (.cons _ (by decide)) behind

structure SpellsFactors (text : String) (powers : List (UnitBase × Int)) : Prop where
  apart : ∀ rest, Apart rest → Apart (text.toList ++ rest)
  spelled : ∃ list, Factors list powers ∧ Spells text list

namespace SpellsFactors

variable {text : String} {powers : List (UnitBase × Int)} {base : UnitBase} {number : Int}
  {factors : List (UnitBase × Int)}

theorem nil : SpellsFactors "" [] where
  apart rest apart := by simpa using apart
  spelled := ⟨[], .nil, fun rest tokens _ lexes => by simpa using lexes⟩

private theorem cons {sign : String} {c : Char} {mark : Symbol} (alone : sign.toList = [c])
    (isSign : Symbol.ofChar? c = some mark) (other : Text.continuesWord c = false)
    (isWord : Text.isWord base.label = true) (within : WithinLimit number)
    (derives : ∀ {list others}, Factor list (base, (number.natAbs : Int)) → Factors others powers →
      Factors (.symbol mark :: (list ++ others)) ((base, number) :: powers))
    (factors : SpellsFactors text powers) :
    SpellsFactors (sign ++ factorText base.text number.natAbs ++ text) ((base, number) :: powers)
    where
  apart rest _ := by
    simpa [alone] using Apart.cons _ other
  spelled := by
    have small : (number.natAbs : Int) ≤ exponentLimit := by
      obtain ⟨lower, upper⟩ := within
      omega
    obtain ⟨list, derived, spells⟩ := factor_spelled isWord small
    obtain ⟨others, derivedOthers, spellsOthers⟩ := factors.spelled
    refine ⟨_, derives derived derivedOthers, fun rest tokens apart lexes => ?_⟩
    have behind := spells _ _ (factors.apart rest apart) (spellsOthers rest tokens apart lexes)
    simpa [alone] using Lexes.sign isSign behind

theorem times (each : ∀ power ∈ factors, Text.isWord power.1.label = true ∧ WithinLimit power.2)
    (positive : ∀ power ∈ factors, 0 < power.2) (behind : SpellsFactors text powers) :
    SpellsFactors
      (String.join (factors.map fun power => "*" ++ factorText power.1.text power.2.natAbs) ++ text)
      (factors ++ powers) := by
  induction factors with
  | nil => simpa using behind
  | cons power factors ih =>
    rw [List.forall_mem_cons] at each positive
    have same : (power.2.natAbs : Int) = power.2 := by omega
    rw [List.map_cons, String.join_cons, String.append_assoc]
    refine cons rfl rfl (by decide) each.1.1 each.1.2 ?_ (ih each.2 positive.2)
    intro list others derived derivedOthers
    rw [same] at derived
    exact .times derived derivedOthers

theorem divided (each : ∀ power ∈ factors, Text.isWord power.1.label = true ∧ WithinLimit power.2)
    (negative : ∀ power ∈ factors, power.2 < 0) :
    SpellsFactors
      (String.join (factors.map fun power => "/" ++ factorText power.1.text power.2.natAbs))
      factors := by
  induction factors with
  | nil => exact nil
  | cons power factors ih =>
    rw [List.forall_mem_cons] at each negative
    have same : -(power.2.natAbs : Int) = power.2 := by omega
    rw [List.map_cons, String.join_cons]
    refine cons rfl rfl (by decide) each.1.1 each.1.2 ?_ (ih each.2 negative.2)
    intro list others derived derivedOthers
    have signed := Factors.divided derived derivedOthers
    rwa [same] at signed

end SpellsFactors

private theorem intercalate_cons (sign first : String) (others : List String) :
    sign.intercalate (first :: others) = first ++ String.join (others.map (sign ++ ·)) := by
  induction others generalizing first with
  | nil => simp
  | cons next others ih => simp [String.intercalate_cons_cons, ih, String.append_assoc]

theorem product_spelled
    (each : ∀ power ∈ powers, Text.isWord power.1.label = true ∧ WithinLimit power.2) :
    ∃ list, Product list (powers.filter (fun power => 0 < power.2) ++
        powers.filter fun power => power.2 < 0) ∧
      Spells (productText (powers.map fun power => (power.1.text, power.2))) list := by
  have eachAbove : ∀ power ∈ powers.filter fun power => 0 < power.2,
      (Text.isWord power.1.label = true ∧ WithinLimit power.2) ∧ 0 < power.2 := by
    intro power member
    obtain ⟨inPowers, positive⟩ := List.mem_filter.mp member
    exact ⟨each power inPowers, by simpa using positive⟩
  have below : SpellsFactors (String.join ((powers.filter fun power => power.2 < 0).map
      fun power => "/" ++ factorText power.1.text power.2.natAbs))
      (powers.filter fun power => power.2 < 0) :=
    .divided (fun power member => each power (List.mem_filter.mp member).1)
      (fun power member => by simpa using (List.mem_filter.mp member).2)
  unfold productText
  simp only [List.filter_map, Function.comp_def, List.map_map, List.isEmpty_map]
  cases above : powers.filter (fun power => 0 < power.2) with
  | nil =>
    obtain ⟨list, derived, spells⟩ := below.spelled
    refine ⟨_, .one derived, fun rest tokens apart lexes => ?_⟩
    have one : Nat.toDigits 10 1 = ['1'] := by decide
    have small : 1 ≤ integerLimit := by decide
    have behind := spells rest tokens apart lexes
    simpa [one] using Lexes.integer small (below.apart rest apart) behind
  | cons first others =>
    rw [above, List.forall_mem_cons] at eachAbove
    obtain ⟨⟨⟨isWord, within⟩, positive⟩, eachOther⟩ := eachAbove
    have same : (first.2.natAbs : Int) = first.2 := by omega
    have factors := below.times (fun power member => (eachOther power member).1)
      (fun power member => (eachOther power member).2)
    obtain ⟨list, derived, spells⟩ := factors.spelled
    obtain ⟨front, derivedFront, spellsFront⟩ := factor_spelled isWord
      (by rw [same]; exact within.2)
    rw [same] at derivedFront
    refine ⟨_, .factor derivedFront derived, fun rest tokens apart lexes => ?_⟩
    have behind := spellsFront _ _ (factors.apart rest apart) (spells rest tokens apart lexes)
    simpa [intercalate_cons, Function.comp_def] using behind

theorem UnitTemplate.isProduct_signed (unit : UnitTemplate) :
    IsProduct (unit.powers.filter (fun power => 0 < power.2) ++
      unit.powers.filter fun power => power.2 < 0) unit := by
  have distinct := unit.powers_nodup
  refine .of_mem ?_ fun power => ?_
  · rw [List.map_append, List.nodup_append]
    refine ⟨?_, ?_, ?_⟩
    · exact (List.filter_sublist.map _).nodup distinct
    · exact (List.filter_sublist.map _).nodup distinct
    · intro base above other below same
      obtain ⟨⟨_, number⟩, inAbove, rfl⟩ := List.mem_map.mp above
      obtain ⟨⟨_, second⟩, inBelow, rfl⟩ := List.mem_map.mp below
      obtain ⟨first, positive⟩ := List.mem_filter.mp inAbove
      obtain ⟨last, negative⟩ := List.mem_filter.mp inBelow
      cases same
      have same := (mem_powers.mp first).1.symm.trans (mem_powers.mp last).1
      simp only [decide_eq_true_eq] at positive negative
      omega
  · rw [List.mem_append, List.mem_filter, List.mem_filter]
    constructor
    · rintro (⟨member, _⟩ | ⟨member, _⟩) <;> exact member
    · intro member
      have nonzero := (mem_powers.mp member).2
      rcases Int.lt_or_gt_of_ne nonzero with negative | positive
      · exact .inr ⟨member, by simpa using negative⟩
      · exact .inl ⟨member, by simpa using positive⟩

theorem UnitTemplate.spelled (spellable : unit.Spellable) :
    ∃ list, DerivesUnit list unit ∧ Spells unit.render list := by
  have each : ∀ power ∈ unit.powers, Text.isWord power.1.label = true ∧ WithinLimit power.2 := by
    intro power member
    obtain ⟨here, nonzero⟩ := mem_powers.mp member
    rw [← here] at nonzero ⊢
    exact ⟨spellable.isWord nonzero, unit.exponentOf_within _⟩
  obtain ⟨list, derived, spells⟩ := product_spelled each
  rw [← unit.render_eq] at spells
  exact ⟨list, ⟨_, derived, unit.isProduct_signed⟩, spells⟩

/-! ### The text of a type -/

def Template.Spelled (template : Template) : Prop :=
  ∃ list, Derives list (.type template) ∧ Spells template.render list

theorem fieldName_spelled (name : String) :
    ∃ token, FieldName token name ∧ Spells (fieldNameText name) [token] := by
  unfold fieldNameText
  split
  next isPlain =>
    rw [Bool.and_eq_true] at isPlain
    exact ⟨.word name, .word name, .word isPlain.1⟩
  next => exact ⟨.quoted name, .quoted name, fun _ _ _ lexes => .quoted name lexes⟩

theorem items_spelled {items : List Template} (nonempty : items ≠ [])
    (each : ∀ item ∈ items, item.Spelled) :
    ∃ list, Derives list (.items items) ∧
      Spells (TypeTerm.renderItems Template.spelling items) list := by
  induction items with
  | nil => exact absurd rfl nonempty
  | cons item items ih =>
    rw [List.forall_mem_cons] at each
    obtain ⟨list, derived, spells⟩ := each.1
    cases items with
    | nil => exact ⟨list, .item derived, spells⟩
    | cons next items =>
      obtain ⟨others, derivedOthers, spellsOthers⟩ := ih (by simp) each.2
      exact ⟨_, .items derived derivedOthers, spells.sign rfl rfl (by decide) spellsOthers⟩

theorem fields_spelled {fields : List (String × Template)} (nonempty : fields ≠ [])
    (each : ∀ field ∈ fields, field.2.Spelled) :
    ∃ list, Derives list (.fields fields) ∧
      Spells (TypeTerm.renderFields Template.spelling fields) list := by
  induction fields with
  | nil => exact absurd rfl nonempty
  | cons field fields ih =>
    obtain ⟨name, template⟩ := field
    rw [List.forall_mem_cons] at each
    obtain ⟨list, derived, spells⟩ := each.1
    obtain ⟨token, named, spellsName⟩ := fieldName_spelled name
    have spellsField : Spells (fieldNameText name ++ ": " ++ template.render)
        (token :: .symbol .colon :: list) := spellsName.sign rfl rfl (by decide) spells
    cases fields with
    | nil => exact ⟨_, .field named derived, spellsField⟩
    | cons next fields =>
      obtain ⟨others, derivedOthers, spellsOthers⟩ := ih (by simp) each.2
      exact ⟨_, .fields named derived derivedOthers,
        spellsField.sign rfl rfl (by decide) spellsOthers⟩

theorem operands_spelled {operands : List (Operand Template UnitTemplate)}
    (types : ∀ value, .type value ∈ operands → value.Spelled)
    (units : ∀ unit : UnitTemplate, .unit unit ∈ operands → unit.Spellable) :
    ∃ list, Derives list (.operands operands) ∧
      ∀ rest tokens, Lexes rest tokens →
        Lexes ((TypeTerm.renderOperands Template.spelling operands).toList ++ rest)
          (list ++ tokens) := by
  induction operands with
  | nil => exact ⟨[], .noOperands, fun rest tokens lexes => by simpa [TypeTerm.renderOperands]⟩
  | cons operand operands ih =>
    obtain ⟨others, derivedOthers, spellsOthers⟩ :=
      ih (fun value member => types value (List.mem_cons_of_mem _ member))
        (fun unit member => units unit (List.mem_cons_of_mem _ member))
    cases operand with
    | type value =>
      obtain ⟨list, derived, spells⟩ := types value List.mem_cons_self
      refine ⟨_, .typeOperand derived derivedOthers, fun rest tokens lexes => ?_⟩
      have behind := spellsOthers rest tokens lexes
      have inner := spells (')' :: _) _ (.cons _ (by decide)) (.sign rfl behind)
      have opened : Lexes (' ' :: '(' :: _) (.symbol .leftParen :: _) :=
        .blank (by decide) (.sign rfl inner)
      simpa [TypeTerm.renderOperands, Template.render] using opened
    | unit value =>
      obtain ⟨list, derived, spells⟩ :=
        UnitTemplate.spelled (units value List.mem_cons_self)
      refine ⟨_, .unitOperand derived derivedOthers, fun rest tokens lexes => ?_⟩
      have behind := spellsOthers rest tokens lexes
      have inner := spells ('\x7d' :: _) _ (.cons _ (by decide)) (.sign rfl behind)
      have opened : Lexes (' ' :: '\x7b' :: _) (.symbol .leftBrace :: _) :=
        .blank (by decide) (.sign rfl inner)
      simpa [TypeTerm.renderOperands, Template.spelling] using opened

/-- By induction on the template: what stands between its parts keeps them apart. -/
theorem Template.WellFormed.spelled (wellFormed : template.WellFormed) : template.Spelled := by
  induction wellFormed with
  | @var name isWord =>
    have continues : ∀ c ∈ "TYPEVAR".toList, Text.continuesWord c = true :=
      List.all_eq_true.mp (by decide +kernel)
    refine ⟨_, .var name, .marked (by decide) continues isWord ?_⟩
    simp [render, TypeTerm.renderWith, spelling, typeVariableText]
  | @number unit spellable =>
    by_cases scalar : unit.isScalar = true
    · obtain rfl := UnitTemplate.eq_scalar scalar
      refine ⟨_, .plainNumber, ?_⟩
      rw [render, TypeTerm.renderWith, spelling, if_pos scalar]
      exact .word (by decide)
    · obtain ⟨list, derived, spells⟩ := UnitTemplate.spelled spellable
      refine ⟨_, .number derived, fun rest tokens apart lexes => ?_⟩
      have inner := spells ('\x7d' :: rest) _ (.cons _ (by decide)) (.sign rfl lexes)
      have named : Lexes ("NUMBER".toList ++ '\x7b' :: _) (.word "NUMBER" :: _) :=
        .word (by decide) (.cons _ (by decide)) (.sign rfl inner)
      simpa [render, TypeTerm.renderWith, spelling, scalar] using named
  | text => exact ⟨_, .text, .word (by decide)⟩
  | boolean => exact ⟨_, .boolean, .word (by decide)⟩
  | date kind =>
    refine ⟨_, .date kind, .word ?_⟩
    cases kind <;> decide +kernel
  | @tuple items several each ih =>
    have nonempty : items ≠ [] := by
      rintro rfl
      simp at several
    obtain ⟨list, derived, spells⟩ := items_spelled nonempty ih
    refine ⟨_, .tuple derived several, fun rest tokens apart lexes => ?_⟩
    have inner := spells (')' :: rest) _ (.cons _ (by decide)) (.sign rfl lexes)
    have opened : Lexes ('(' :: _) (.symbol .leftParen :: _) := .sign rfl inner
    simpa [render, TypeTerm.renderWith] using opened
  | array _ ih =>
    obtain ⟨list, derived, spells⟩ := ih
    refine ⟨_, .array derived, fun rest tokens apart lexes => ?_⟩
    have inner := spells (']' :: rest) _ (.cons _ (by decide)) (.sign rfl lexes)
    have opened : Lexes ('[' :: _) (.symbol .leftBracket :: _) := .sign rfl inner
    simpa [render, TypeTerm.renderWith] using opened
  | @function params result _ _ paramsIh ih =>
    obtain ⟨list, derived, spells⟩ := ih
    have target (rest : List Char) {tokens : List Token} (lexes : Lexes rest tokens) :
        Lexes (')' :: ' ' :: '-' :: '>' :: ' ' :: (result.render.toList ++ ')' :: rest))
          (.symbol .rightParen :: .symbol .arrow ::
            (list ++ .symbol .rightParen :: tokens)) := by
      have inner := spells (')' :: rest) _ (.cons _ (by decide)) (.sign rfl lexes)
      exact .sign rfl (.blank (by decide) (.arrow (.blank (by decide) inner)))
    by_cases none : params = []
    · subst none
      refine ⟨_, .constant derived, fun rest tokens apart lexes => ?_⟩
      have opened : Lexes ('(' :: '(' :: _) (.symbol .leftParen :: .symbol .leftParen :: _) :=
        .sign rfl (.sign rfl (target rest lexes))
      simpa [render, TypeTerm.renderWith, TypeTerm.renderItems] using opened
    · obtain ⟨paramList, derivedParams, spellsParams⟩ := items_spelled none paramsIh
      refine ⟨_, .function derivedParams derived, fun rest tokens apart lexes => ?_⟩
      have inner := spellsParams _ _ (.cons _ (by decide)) (target rest lexes)
      have opened : Lexes ('(' :: '(' :: _) (.symbol .leftParen :: .symbol .leftParen :: _) :=
        .sign rfl (.sign rfl inner)
      simpa [render, TypeTerm.renderWith] using opened
  | @record fields _ ih =>
    have named {inside : List Char} {tokens : List Token} (lexes : Lexes inside tokens) :
        Lexes ("RECORD".toList ++ '\x7b' :: inside)
          (.word "RECORD" :: .symbol .leftBrace :: tokens) :=
      .word (by decide) (.cons _ (by decide)) (.sign rfl lexes)
    by_cases none : fields = []
    · subst none
      refine ⟨_, .emptyRecord, fun rest tokens apart lexes => ?_⟩
      have whole := named (.sign (c := '\x7d') rfl lexes)
      simpa [render, TypeTerm.renderWith, TypeTerm.renderFields] using whole
    · obtain ⟨list, derived, spells⟩ := fields_spelled none ih
      refine ⟨_, .record derived, fun rest tokens apart lexes => ?_⟩
      have whole := named (spells ('\x7d' :: rest) _ (.cons _ (by decide)) (.sign rfl lexes))
      simpa [render, TypeTerm.renderWith] using whole
  | @tagged name operands _ units ih =>
    obtain ⟨list, derived, spells⟩ := operands_spelled ih units
    refine ⟨_, .tagged name derived, fun rest tokens apart lexes => ?_⟩
    have inner := Lexes.quoted name (spells rest tokens lexes)
    have named : Lexes ("TAGGED".toList ++ ' ' :: _) (.word "TAGGED" :: _) :=
      .word (by decide) (.cons _ (by decide)) (.blank (by decide) inner)
    simpa [render, TypeTerm.renderWith] using named

/-- The words of a product are the names in it. -/
theorem Grammar.Factor.word_mem {power : UnitBase × Int} (derived : Factor list power) :
    .word power.1.label ∈ list := by
  obtain ⟨base, _⟩ := derived
  cases base <;> simp [UnitBase.label]

theorem Grammar.Factors.word_mem (derived : Factors list powers) :
    ∀ power ∈ powers, .word power.1.label ∈ list := by
  induction derived with
  | nil => simp
  | times factor _ ih =>
    rw [List.forall_mem_cons]
    refine ⟨?_, fun power member => ?_⟩
    · exact List.mem_cons_of_mem _ (List.mem_append_left _ factor.word_mem)
    · exact List.mem_cons_of_mem _ (List.mem_append_right _ (ih power member))
  | divided factor _ ih =>
    rw [List.forall_mem_cons]
    refine ⟨?_, fun power member => ?_⟩
    · exact List.mem_cons_of_mem _ (List.mem_append_left _ factor.word_mem)
    · exact List.mem_cons_of_mem _ (List.mem_append_right _ (ih power member))

theorem Grammar.Product.word_mem (derived : Product list powers) :
    ∀ power ∈ powers, .word power.1.label ∈ list := by
  cases derived with
  | one factors => exact fun power member => List.mem_cons_of_mem _ (factors.word_mem power member)
  | factor first others =>
    rw [List.forall_mem_cons]
    refine ⟨List.mem_append_left _ first.word_mem, fun power member => ?_⟩
    exact List.mem_append_right _ (others.word_mem power member)

theorem Grammar.DerivesUnit.spellable (derived : DerivesUnit list unit)
    (words : ∀ text, .word text ∈ list → Text.isWord text = true) : unit.Spellable := by
  obtain ⟨powers, product, exponents, _⟩ := derived
  have isWord {base : UnitBase} (occurs : unit.exponentOf base ≠ 0) :
      Text.isWord base.label = true := by
    rw [exponents] at occurs
    have member : base ∈ powers.map Prod.fst := by
      by_cases member : base ∈ powers.map Prod.fst
      · exact member
      · exact absurd (totalPower_of_not_mem member) occurs
    obtain ⟨power, found, rfl⟩ := List.mem_map.mp member
    exact words _ (product.word_mem power found)
  constructor
  · intro name member
    exact @isWord (.name name) (PowerProduct.mem_keys.mp member)
  · intro name member
    exact @isWord (.var name) (PowerProduct.mem_keys.mp member)

def Grammar.Phrase.WellFormed : Phrase → Prop
  | .type template => template.WellFormed
  | .items templates => ∀ template ∈ templates, template.WellFormed
  | .fields entries => ∀ entry ∈ entries, entry.2.WellFormed
  | .operands values => (∀ value, .type value ∈ values → value.WellFormed) ∧
      ∀ unit : UnitTemplate, .unit unit ∈ values → unit.Spellable

theorem Grammar.Derives.wellFormed {phrase : Phrase} (derived : Derives list phrase)
    (words : ∀ text, .word text ∈ list → Text.isWord text = true) : phrase.WellFormed := by
  induction derived with
  | plainNumber => exact Template.WellFormed.number (by decide)
  | number unit =>
    exact Template.WellFormed.number
      (unit.spellable fun text member => words text (by simp [member]))
  | text => exact Template.WellFormed.text
  | boolean => exact Template.WellFormed.boolean
  | date kind => exact Template.WellFormed.date kind
  | var name => exact Template.WellFormed.var (words name (by simp))
  | array _ ih =>
    exact Template.WellFormed.array (ih fun text member => words text (by simp [member]))
  | constant _ ih =>
    exact Template.WellFormed.function (by simp)
      (ih fun text member => words text (by simp [member]))
  | function _ _ paramsIh ih =>
    exact Template.WellFormed.function
      (paramsIh fun text member => words text (by simp [member]))
      (ih fun text member => words text (by simp [member]))
  | tuple _ several ih =>
    exact Template.WellFormed.tuple several (ih fun text member => words text (by simp [member]))
  | emptyRecord => exact Template.WellFormed.record (by simp)
  | record _ ih =>
    exact Template.WellFormed.record (ih fun text member => words text (by simp [member]))
  | tagged name _ ih =>
    obtain ⟨types, units⟩ := ih fun text member => words text (by simp [member])
    exact Template.WellFormed.tagged types units
  | item _ ih =>
    rw [Phrase.WellFormed]
    exact List.forall_mem_singleton.mpr (ih words)
  | items _ _ ih restIh =>
    rw [Phrase.WellFormed, List.forall_mem_cons]
    exact ⟨ih fun text member => words text (by simp [member]),
      restIh fun text member => words text (by simp [member])⟩
  | field _ _ ih =>
    rw [Phrase.WellFormed]
    exact List.forall_mem_singleton.mpr (ih fun text member => words text (by simp [member]))
  | fields _ _ _ ih restIh =>
    rw [Phrase.WellFormed, List.forall_mem_cons]
    exact ⟨ih fun text member => words text (by simp [member]),
      restIh fun text member => words text (by simp [member])⟩
  | noOperands => exact ⟨by simp, by simp⟩
  | typeOperand _ _ ih restIh =>
    obtain ⟨types, units⟩ := restIh fun text member => words text (by simp [member])
    have first := ih fun text member => words text (by simp [member])
    refine ⟨fun value member => ?_, fun unit member => units unit (by simpa using member)⟩
    rcases List.mem_cons.mp member with same | later
    · cases same
      exact first
    · exact types value later
  | unitOperand unit _ restIh =>
    obtain ⟨types, units⟩ := restIh fun text member => words text (by simp [member])
    have first := unit.spellable fun text member => words text (by simp [member])
    refine ⟨fun value member => types value (by simpa using member), fun unit member => ?_⟩
    rcases List.mem_cons.mp member with same | later
    · cases same
      exact first
    · exact units unit later

theorem Template.WellFormed.parse_render (wellFormed : template.WellFormed) :
    Template.parse template.render = .ok template := by
  obtain ⟨list, derived, spells⟩ := wellFormed.spelled
  have lexes := spells [] [] .nil .nil
  rw [List.append_nil, List.append_nil] at lexes
  obtain ⟨located, read, same⟩ := readAll_of_lexes lexes
  exact Template.parse_eq_ok.mpr ⟨located, read, same ▸ derived⟩

theorem UnitTemplate.Spellable.parse_render (spellable : unit.Spellable) :
    UnitTemplate.parse unit.render = .ok unit := by
  obtain ⟨list, derived, spells⟩ := UnitTemplate.spelled spellable
  have lexes := spells [] [] .nil .nil
  rw [List.append_nil, List.append_nil] at lexes
  obtain ⟨located, read, same⟩ := readAll_of_lexes lexes
  exact UnitTemplate.parse_eq_ok.mpr ⟨located, read, same ▸ derived⟩

theorem Template.wellFormed_of_parse (read : Template.parse text = .ok template) :
    template.WellFormed := by
  obtain ⟨located, lexed, derived⟩ := Template.parse_eq_ok.mp read
  exact derived.wellFormed fun _ member => isWord_of_readFrom lexed member

theorem UnitTemplate.spellable_of_parse (read : UnitTemplate.parse text = .ok unit) :
    unit.Spellable := by
  obtain ⟨located, lexed, derived⟩ := UnitTemplate.parse_eq_ok.mp read
  exact derived.spellable fun _ member => isWord_of_readFrom lexed member

/-- The text of a template or unit is read back as that template or unit exactly if it is well
formed, and reading gives well-formed templates only: writing and reading are inverse on all that
can be read. -/
theorem Template.parse_render_iff (template : Template) (unit : UnitTemplate) :
    (Template.parse template.render = .ok template ↔ template.WellFormed) ∧
    (UnitTemplate.parse unit.render = .ok unit ↔ unit.Spellable) ∧
    ((∃ text, Template.parse text = .ok template) ↔ template.WellFormed) :=
  ⟨⟨Template.wellFormed_of_parse, WellFormed.parse_render⟩,
    ⟨UnitTemplate.spellable_of_parse, UnitTemplate.Spellable.parse_render⟩,
    ⟨fun found => found.elim fun _ => Template.wellFormed_of_parse,
      fun wellFormed => ⟨_, wellFormed.parse_render⟩⟩⟩

/-- Quotes, a reserved word as a field name, an exponent at the limit, and a tuple that starts like
a function. -/
theorem Template.parse_render_quoted_fields :
    Template.parse (Template.render (.record
        [("unit \"price\"", .number ⟨.ofList [("EUR", 1), ("m", -2147483647)], .one⟩),
          ("TEXT", .tuple [.function [] .text, .var "item"])])) =
      .ok (.record
        [("unit \"price\"", .number ⟨.ofList [("EUR", 1), ("m", -2147483647)], .one⟩),
          ("TEXT", .tuple [.function [] .text, .var "item"])]) := by
  refine (Template.parse_render_iff _ .scalar).1.mpr (.record fun field member => ?_)
  rcases List.mem_cons.mp member with rfl | last
  · exact .number (by decide +kernel)
  · obtain rfl := List.mem_singleton.mp last
    refine .tuple (by decide) fun item member => ?_
    rcases List.mem_cons.mp member with rfl | last
    · exact .function (by simp) .text
    · obtain rfl := List.mem_singleton.mp last
      exact .var (by decide)

end SheetTypes
