import SheetTypes.Proofs.Session.Reachability

/-!
Requirements on variables. A requirement that has been placed on a variable is passed on to all that
the variable comes to stand for, in whatever way: by links to other variables, to parts of types,
and to types that are made later. It is never lost.
-/

set_option autoImplicit false

namespace SheetTypes

open Store

variable {store : Store} {capability origin : String} {type : InferredType}

/-- A type that links have been resolved in is the shape of what it was resolved from. -/
theorem Store.Resolved.shape {result : InferredType} (resolved : store.Resolved type result)
    (wellformed : store.Wellformed) : store.shape type = result.substitute .var fun _ => () := by
  have same : store.shape result = store.shape type :=
    resolved.value _ (faithful_unit store) (wellformed.extend_satisfies _)
  rw [← same, shape_eq_substitute]
  exact TypeTerm.substitute_congr result (fun var has => shape_unbound (resolved.free var has))
    fun _ _ => rfl

/-- The variables that are left when links are resolved are those of the shape. -/
theorem Store.Wellformed.hasVar_resolve (wellformed : store.Wellformed)
    (covered : store.Covers type) {var : TypeVar} :
    (Store.resolve type store).1.HasVar var ↔ (store.shape type).HasVar var := by
  have resolved := resolve_resolved wellformed covered
  have settled := Shortens.settled resolved.steps
  rw [← settled.shape wellformed, resolved.ends.shape (settled.wellformed wellformed),
    TypeTerm.hasVar_substitute]
  simp [TypeTerm.HasVar, TypeTerm.leaves]

/-- What a requirement has been passed on to keeps it when links are resolved. -/
theorem Store.Carries.resolve (carried : store.Carries capability origin type)
    (wellformed : store.Wellformed) (covered : store.Covers type) :
    (Store.resolve type store).1.hasFunction = false ∧
      ∀ var, (Store.resolve type store).1.HasVar var → ∃ requirements,
        store.requirements? var = some requirements ∧
          origin ∈ requirements.originsOf capability := by
  have resolved := resolve_resolved wellformed covered
  have settled := Shortens.settled resolved.steps
  have shape := resolved.ends.shape (settled.wellformed wellformed)
  rw [settled.shape wellformed] at shape
  obtain ⟨functions, vars⟩ := carried
  rw [shape] at functions vars
  constructor
  · rw [Bool.eq_false_iff, ne_eq, TypeTerm.hasFunction_substitute] at functions
    exact Bool.eq_false_iff.mpr fun found => functions (.inl found)
  · intro var has
    apply vars
    rw [TypeTerm.hasVar_substitute]
    exact ⟨var, has, List.mem_singleton_self _⟩

namespace Session

/-- The ways to place a requirement on a variable: to create the variable with it, or to require
the capability of the variable. -/
inductive Places (capability origin : String) (var : TypeVar) (before after : Session) : Prop where
  | fresh (made : freshType (.single capability origin) before = (.var var, after))
  | require (within : var.index < before.store.types.size)
      (done : require (.var var) capability origin before = (.ok (), after))

variable {before after session : Session} {var : TypeVar}

theorem Places.next (placed : Places capability origin var before after) : Next before after := by
  cases placed with
  | fresh made =>
    refine ⟨.freshType (.single capability origin), trivial, ?_⟩
    have whole : before.after (.freshType (.single capability origin)) =
        (freshType (.single capability origin) before).2 := rfl
    rw [whole, made]
  | require within done =>
    refine ⟨.require (.var var) capability origin, covers_var.mpr within, ?_⟩
    have whole : before.after (.require (.var var) capability origin) =
        (Session.require (.var var) capability origin before).2 := rfl
    rw [whole, done]

theorem Places.carries (placed : Places capability origin var before after)
    (wellformed : before.store.Wellformed) :
    after.store.Carries capability origin (.var var) := by
  cases placed with
  | fresh made =>
    cases made
    exact carries_of_requirements (requirements?_withType_self before.store _)
      (Requirements.mem_originsOf_single capability origin)
  | require within done =>
    have yields := inferEscalating_yields (enforce_yields wellformed (covers_var.mpr within)
      (.single capability origin))
    have ends := yields.ends
    have whole : inferEscalating (enforce (.single capability origin) (.var var)) before =
        (.ok (), after) := done
    rw [whole] at ends
    exact ends capability origin (Requirements.mem_originsOf_single capability origin)

theorem Places.covers (placed : Places capability origin var before after)
    (wellformed : before.store.Wellformed) : after.store.Covers (.var var) := by
  cases placed with
  | fresh made =>
    cases made
    rw [covers_var]
    exact index_lt_of_requirements (requirements?_withType_self before.store _)
  | require within done =>
    have extended := Evolves.extends ((Places.require within done).next.evolves wellformed)
    exact extended.covers (covers_var.mpr within)

/-- A requirement stays with all that its variable stands for: there is never a function in it, and
every unbound variable in it has the requirement. So its concrete type has neither a function nor
`VOID` in it. -/
theorem requirement_kept (reachable : before.Reachable)
    (placed : Places capability origin var before after) (later : Later after session) :
    (resolve (.var var) session).1.hasFunction = false ∧
    (∀ other, (resolve (.var var) session).1.HasVar other → ∃ requirements,
      session.store.requirements? other = some requirements ∧
        origin ∈ requirements.originsOf capability) ∧
    ∀ registry allowDefaults type,
      session.store.concretize registry allowDefaults (.var var) = .ok type →
        type.hasFunction = false ∧ ¬type.HasVar .void := by
  have wellformed := reachable.wellformed
  have placedCarries := placed.carries wellformed
  have placedEvolves := placed.next.evolves wellformed
  have placedWellformed := (Evolves.extends placedEvolves).wellformed wellformed
  have extended := Evolves.extends (Later.evolves later placedWellformed)
  have lastWellformed := extended.wellformed placedWellformed
  have carried := extended.carries placedWellformed placedCarries
  have inside := extended.covers (placed.covers wellformed)
  obtain ⟨functions, vars⟩ := carried.resolve lastWellformed inside
  refine ⟨functions, vars, fun registry allowDefaults type made => ?_⟩
  have results := concretize_results lastWellformed registry allowDefaults capability origin
    (.var var)
  rw [made] at results
  exact ⟨(results carried).1, (results carried).2 .void⟩

theorem requirement_kept_array :
    let before := ((start .empty {}).after (.freshType .none)).after (.freshType .none)
    let after := before.after (.require (.var ⟨0⟩) "Equatable" "=")
    let session := after.after (.unify (.var ⟨0⟩) (.array (.var ⟨1⟩)))
    Places "Equatable" "=" ⟨0⟩ before after ∧
      (resolve (.var ⟨0⟩) session).1 = .array (.var ⟨1⟩) ∧
      ∃ requirements, session.store.requirements? ⟨1⟩ = some requirements ∧
        "=" ∈ requirements.originsOf "Equatable" := by
  intro before after session
  have reachable : before.Reachable :=
    ((reachable_start .empty {}).after (.freshType .none) trivial).after (.freshType .none) trivial
  have placed : Places "Equatable" "=" ⟨0⟩ before after :=
    .require (by decide +kernel) (Prod.ext rfl rfl)
  have later : Later after session :=
    .single ⟨.unify (.var ⟨0⟩) (.array (.var ⟨1⟩)), ⟨by decide +kernel, by decide +kernel⟩, rfl⟩
  have resolved : (resolve (.var ⟨0⟩) session).1 = .array (.var ⟨1⟩) := by decide +kernel
  obtain ⟨_, vars, _⟩ := requirement_kept reachable placed later
  rw [resolved] at vars
  exact ⟨placed, resolved, vars ⟨1⟩ (List.mem_singleton_self _)⟩

end Session

end SheetTypes
