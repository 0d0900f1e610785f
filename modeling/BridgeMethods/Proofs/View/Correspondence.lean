import BridgeMethods.Proofs.Lookup
import BridgeMethods.Proofs.View.Alike
import BridgeMethods.Proofs.View.Chain

/-!
# Pools that are classified alike

Two pools may be made of different classes and still be the same to the rules.  It is enough that
views of the one are related to views of the other such that methods seen through related views
correspond, and that a step up from related views leads to related views.  Then the whole way up
does so too, the searches on it find methods that correspond, and all sorts are the same.
-/

namespace BridgeMethods

/-- The methods that two types declare correspond to each other, in the order of declaration. -/
def TypeView.Corresponds (view other : TypeView) : Prop :=
  List.Forall₂ MethodView.Corresponds view.methods other.methods

namespace TypeView.Corresponds

variable {view other : TypeView}

theorem overridableWith?_rel (corresponds : view.Corresponds other) (token : MethodToken) :
    Option.Rel MethodView.Corresponds (view.overridableWith? token)
      (other.overridableWith? token) := by
  rw [overridableWith?_eq_find?, overridableWith?_eq_find?]
  apply List.Forall₂.find?_rel corresponds
  intro method otherMethod corresponds
  exact corresponds.isOverridableWith_eq token

theorem declaredWith?_rel (corresponds : view.Corresponds other) (token : MethodToken) :
    Option.Rel MethodView.Corresponds (view.declaredWith? token) (other.declaredWith? token) := by
  apply List.Forall₂.find?_rel corresponds
  intro method otherMethod corresponds
  rw [corresponds.declaredToken]

theorem isReturnTypeBridge_eq {method otherMethod : MethodView}
    (owners : method.owner.Corresponds otherMethod.owner)
    (corresponds : method.Corresponds otherMethod) :
    method.isReturnTypeBridge = otherMethod.isReturnTypeBridge := by
  have siblings : method.owner.methods.any method.isSiblingOf =
      otherMethod.owner.methods.any otherMethod.isSiblingOf :=
    List.Forall₂.any_eq owners fun _ _ candidates => corresponds.isSiblingOf_eq candidates
  rw [MethodView.isReturnTypeBridge_eq, MethodView.isReturnTypeBridge_eq, corresponds.isBridge_eq,
    siblings]

theorem tokensDistinct {entry other : ClassEntry}
    (corresponds : (declaration entry).Corresponds (declaration other))
    (distinct : entry.TokensDistinct) : other.TokensDistinct := by
  have tokens : (declaration entry).methods.map (·.token) =
      (declaration other).methods.map (·.token) :=
    List.Forall₂.map_eq_map corresponds fun _ _ corresponds => corresponds.token
  rw [ClassEntry.TokensDistinct, ← tokens]
  exact distinct

end TypeView.Corresponds

/-- The view of a class that a view refers to as its super class: the type parameters are bound to
the erased arguments. -/
def TypeView.superView (view : TypeView) (reference : SuperReference) (target : ClassEntry) :
    TypeView :=
  ⟨target, (target.typeParameters.map (·.name)).zip (reference.arguments.map (view.erase none))⟩

namespace ClassPool

variable {pool other : ClassPool} {related : TypeView → TypeView → Prop}
  {view otherView : TypeView}

/-- Corresponding methods are of the same sorts if they are return-type bridges at the same time and
if the searches for the other two kinds of bridges find methods that correspond. -/
theorem sortsOf_eq_of_findings {method otherMethod : MethodView}
    (corresponds : method.Corresponds otherMethod)
    (isReturnTypeBridge_eq : method.isReturnTypeBridge = otherMethod.isReturnTypeBridge)
    (overridden : Option.Rel MethodView.Corresponds
      ((pool.superTypes method.owner).findSome? (·.overridableWith? method.token))
      ((other.superTypes otherMethod.owner).findSome? (·.overridableWith? method.token)))
    (declared : Option.Rel MethodView.Corresponds
      ((pool.superTypes method.owner).findSome? (·.declaredWith? method.token))
      ((other.superTypes otherMethod.owner).findSome? (·.declaredWith? method.token))) :
    pool.sortsOf method = other.sortsOf otherMethod := by
  apply congrArg (MethodSort.all.filter ·)
  funext s
  cases s with
  | method => exact corresponds.isMethod_eq
  | constructor => exact corresponds.isConstructor_eq
  | typeInitializer => exact corresponds.isTypeInitializer_eq
  | overridable => exact corresponds.isOverridable_eq
  | visibilityBridge =>
      rw [isOfSort, isOfSort, isVisibilityBridge, isVisibilityBridge, corresponds.isBridge_eq,
        corresponds.isInterface, isReturnTypeBridge_eq, ← corresponds.token,
        overridden.any_eq fun _ _ found => found.isDeclared_eq]
  | typeVariableBridge =>
      rw [isOfSort, isOfSort, isTypeVariableBridge, isTypeVariableBridge, corresponds.isBridge_eq,
        corresponds.isInterface, isReturnTypeBridge_eq, ← corresponds.token,
        declared.any_eq fun _ _ found => congrArg (!·) found.isDeclared_eq]
  | returnTypeBridge => exact isReturnTypeBridge_eq
  | defaultMethod => exact corresponds.isDefaultMethod_eq

/-! ## Relations that are kept on the way up -/

/-- Classes that correspond are found under the same names. -/
theorem lookup?_rel {relatedEntries : ClassEntry → ClassEntry → Prop}
    (entries : List.Forall₂ relatedEntries pool.classes other.classes)
    (names : ∀ entry otherEntry, relatedEntries entry otherEntry → otherEntry.name = entry.name)
    (name : String) :
    Option.Rel (fun target otherTarget => target ∈ pool.classes ∧ relatedEntries target otherTarget)
      (pool.lookup? name) (other.lookup? name) := by
  apply List.Forall₂.find?_rel
    (entries.imp_of_mem fun entry member _ _ holds => ⟨member, holds⟩)
  rintro entry otherEntry ⟨_, holds⟩
  rw [names entry otherEntry holds]

theorem superType?_eq_bind (pool : ClassPool) (view : TypeView) :
    pool.superType? view = view.entry.superReference.bind fun reference =>
      (pool.lookup? reference.name).map (view.superView reference) := by
  rw [superType?, Option.bind_eq_bind]
  apply Option.bind_congr
  intro reference _
  cases pool.lookup? reference.name <;> rfl

/-- Two views have super types at the same time if their classes refer to super classes at the same
time and the look-ups of these find classes at the same time. -/
theorem superType?_rel (superReferences :
      Option.Rel (fun reference otherReference => Option.Rel (fun target otherTarget =>
          related (view.superView reference target)
            (otherView.superView otherReference otherTarget))
        (pool.lookup? reference.name) (other.lookup? otherReference.name))
      view.entry.superReference otherView.entry.superReference) :
    Option.Rel related (pool.superType? view) (other.superType? otherView) := by
  rw [superType?_eq_bind, superType?_eq_bind]
  generalize view.entry.superReference = extended at superReferences ⊢
  generalize otherView.entry.superReference = otherExtended at superReferences ⊢
  cases superReferences with
  | none => exact .none
  | @some reference otherReference targets =>
      rw [Option.bind_some, Option.bind_some]
      generalize pool.lookup? reference.name = found at targets ⊢
      generalize other.lookup? otherReference.name = otherFound at targets ⊢
      cases targets with
      | none => exact .none
      | some views => exact .some views

/-- A step up from related views leads to related views, or there is none from either. -/
def StepsRelated (pool other : ClassPool) (related : TypeView → TypeView → Prop) : Prop :=
  ∀ view otherView, related view otherView →
    Option.Rel related (pool.superType? view) (other.superType? otherView)

namespace StepsRelated

theorem climbs (steps : pool.StepsRelated other related) {chain : List TypeView}
    (climbs : pool.Climbs view chain) (start : related view otherView) :
    ∃ otherChain, other.Climbs otherView otherChain ∧ List.Forall₂ related chain otherChain := by
  induction climbs generalizing otherView with
  | top isTop =>
      have step := steps _ _ start
      rw [isTop] at step
      exact ⟨[], .top step.eq_none, .nil⟩
  | up above _ ih =>
      have step := steps _ _ start
      rw [above] at step
      obtain ⟨otherParent, otherAbove, parents⟩ := step.exists_of_some
      obtain ⟨otherChain, otherClimbs, chains⟩ := ih parents
      exact ⟨otherParent :: otherChain, .up otherAbove otherClimbs, .cons parents chains⟩

theorem superTypes (steps : pool.StepsRelated other related)
    (acyclic : Acyclic pool.Subclass) (otherAcyclic : Acyclic other.Subclass)
    (member : view.entry ∈ pool.classes) (otherMember : otherView.entry ∈ other.classes)
    (start : related view otherView) :
    List.Forall₂ related (pool.superTypes view) (other.superTypes otherView) := by
  obtain ⟨otherChain, otherClimbs, chains⟩ :=
    steps.climbs (climbs_superTypes acyclic member) start
  rw [(climbs_iff otherAcyclic otherMember).mp otherClimbs] at chains
  exact chains

end StepsRelated

/-! ## Corresponding views -/

/-- Related views have one name and methods that correspond, and their super types are related
again. -/
structure Correspondence (pool other : ClassPool) (related : TypeView → TypeView → Prop) :
    Prop where
  name : ∀ view otherView, related view otherView → view.name = otherView.name
  methods : ∀ view otherView, related view otherView → view.Corresponds otherView
  steps : pool.StepsRelated other related

/-- The methods of two pools have the same signatures and are of the same sorts, type by type. -/
def ClassifiedAlike (pool other : ClassPool) : Prop :=
  List.Forall₂ (fun view otherView : TypeView => view.name = otherView.name ∧
      List.Forall₂ (fun method otherMethod : MethodView =>
          method.signature = otherMethod.signature ∧
            pool.sortsOf method = other.sortsOf otherMethod)
        view.methods otherView.methods)
    pool.types other.types

namespace Correspondence

variable (correspondence : pool.Correspondence other related)
  (acyclic : Acyclic pool.Subclass) (otherAcyclic : Acyclic other.Subclass)

include correspondence acyclic otherAcyclic

theorem sortsOf_eq {method otherMethod : MethodView}
    (member : method.owner.entry ∈ pool.classes)
    (otherMember : otherMethod.owner.entry ∈ other.classes)
    (owners : related method.owner otherMethod.owner)
    (corresponds : method.Corresponds otherMethod) :
    pool.sortsOf method = other.sortsOf otherMethod := by
  have superTypes :=
    correspondence.steps.superTypes acyclic otherAcyclic member otherMember owners
  apply sortsOf_eq_of_findings corresponds
  · exact (correspondence.methods _ _ owners).isReturnTypeBridge_eq corresponds
  · apply superTypes.findSome?_rel
    intro view otherView views
    exact (correspondence.methods _ _ views).overridableWith?_rel method.token
  · apply superTypes.findSome?_rel
    intro view otherView views
    exact (correspondence.methods _ _ views).declaredWith?_rel method.token

theorem classifiedAlike
    (entries : List.Forall₂ (fun entry otherEntry => related (.declaration entry)
      (.declaration otherEntry)) pool.classes other.classes) : pool.ClassifiedAlike other := by
  rw [ClassifiedAlike, types, types, List.forall₂_map_left_iff, List.forall₂_map_right_iff]
  apply entries.imp_of_mem
  intro entry member otherEntry otherMember views
  constructor
  · exact correspondence.name _ _ views
  · apply List.Forall₂.imp_of_mem (correspondence.methods _ _ views)
    intro method methodMember otherMethod otherMethodMember corresponds
    have owner := TypeView.owner_of_mem_methods methodMember
    have otherOwner := TypeView.owner_of_mem_methods otherMethodMember
    refine ⟨corresponds.signature_eq, ?_⟩
    apply correspondence.sortsOf_eq acyclic otherAcyclic _ _ _ corresponds
    · rw [owner]
      exact member
    · rw [otherOwner]
      exact otherMember
    · rw [owner, otherOwner]
      exact views

end Correspondence

end ClassPool

end BridgeMethods
