import BridgeMethods.Proofs.Pool.Change
import BridgeMethods.Proofs.View.Correspondence
import BridgeMethods.Proofs.View.Raw

/-!
# Raw super classes

A class may leave out the type arguments of its super class.  If the arguments erase to what the
type parameters of the super class erase to anyway, then it makes no difference to the signatures
and the sorts of methods.  The views from this class on are others: they bind no type parameters any more.
But the bindings that they have lost said what the declarations say.
-/

namespace BridgeMethods

/-- Through whatever view they are seen, the arguments erase to what the type parameters of a class
erase to in its declaration. -/
def SuperReference.ErasesAsDeclared (reference : SuperReference) (target : ClassEntry) : Prop :=
  ∀ view : TypeView, reference.arguments.map (view.erase none) =
    target.typeParameters.map fun parameter =>
      (TypeView.declaration target).erase none (.typeVar parameter.name)

/-- A class stays as it is, or it leaves out the arguments of its super class because they say
nothing. -/
structure ClassEntry.Loosened (pool : ClassPool) (entry other : ClassEntry) : Prop where
  header : entry.toClassHeader = other.toClassHeader
  methods : entry.methods = other.methods
  superReference : entry.superReference = other.superReference ∨
    ∃ reference target, entry.superReference = some reference ∧
      other.superReference = some ⟨reference.name, []⟩ ∧
      pool.lookup? reference.name = some target ∧ reference.ErasesAsDeclared target

/-- A view binds what it did before, or it binds nothing any more and has bound what the declaration
says. -/
structure TypeView.Loosened (pool : ClassPool) (view other : TypeView) : Prop where
  member : view.entry ∈ pool.classes
  entry : view.entry.Loosened pool other.entry
  bindings : view.bindings = other.bindings ∨ view.BindsAsDeclared ∧ other.bindings = []

theorem SuperReference.ErasesAsDeclared.bindsAsDeclared {reference : SuperReference}
    {target : ClassEntry} (erases : reference.ErasesAsDeclared target) (view : TypeView) :
    (view.superView reference target).BindsAsDeclared := by
  intro name erased bound
  have erased_eq : reference.arguments.map (view.erase none) =
      (target.typeParameters.map (·.name)).map
        ((TypeView.declaration target).eraseVar maxBoundChain none) := by
    rw [erases view, List.map_map]
    rfl
  rw [TypeView.superView, erased_eq] at bound
  exact List.eq_of_lookup_zip_map_self bound

namespace ClassEntry.Loosened

variable {pool : ClassPool} {entry other : ClassEntry}

theorem refl (pool : ClassPool) (entry : ClassEntry) : entry.Loosened pool entry :=
  ⟨rfl, rfl, .inl rfl⟩

theorem name_eq (loosened : entry.Loosened pool other) : entry.name = other.name :=
  congrArg (·.name) loosened.header

theorem congruent (loosened : entry.Loosened pool other) : entry.Congruent other where
  name := loosened.name_eq
  superName := by
    rcases loosened.superReference with same | ⟨reference, _, extended, otherExtended, _⟩
    · rw [same]
    · rw [extended, otherExtended]
      rfl
  tokensDistinct := fun distinct => distinct.congr loosened.header (.of_eq loosened.methods)

end ClassEntry.Loosened

namespace TypeView.Loosened

variable {pool other : ClassPool} {view otherView : TypeView} {method : Option MethodEntry}

theorem erase_eq (loosened : view.Loosened pool otherView)
    (short : view.entry.BoundChainsWithin maxBoundChain) (owns : view.entry.Owns method) :
    view.erase method = otherView.erase method := by
  have header : view.entry.toClassHeader.Alike otherView.entry.toClassHeader :=
    loosened.entry.header ▸ .refl _
  rcases loosened.bindings with sameBindings | ⟨binds, noBindings⟩
  · have alike : view.Alike otherView := ⟨header, sameBindings⟩
    exact alike.erase_eq rfl
  · have alike : (declaration view.entry).Alike otherView := ⟨header, noBindings.symm⟩
    exact (binds.erase_eq short le_rfl owns).trans (alike.erase_eq rfl)

theorem corresponds (loosened : view.Loosened pool otherView)
    (short : view.entry.BoundChainsWithin maxBoundChain) : view.Corresponds otherView := by
  rw [Corresponds, methods, methods, ← loosened.entry.methods, List.forall₂_map_left_iff,
    List.forall₂_map_right_iff, List.forall₂_same]
  intro method member
  have erase_eq : view.erase (some method) = otherView.erase (some method) :=
    loosened.erase_eq short (ClassEntry.owns_some member)
  have declared : (MethodView.mk (.declaration view.entry) method).Alike
      ⟨.declaration otherView.entry, method⟩ :=
    ⟨⟨loosened.entry.header ▸ .refl _, rfl⟩, .refl method⟩
  exact {
    ownerName := declared.owner.header.name
    isInterface := declared.owner.header.isInterface
    isFinal := declared.owner.header.isFinal
    flags := fun _ _ => rfl
    token := by
      simp only [MethodView.token, MethodView.returnType, MethodView.parameterTypes, erase_eq,
        MethodView.internalName]
    declaredToken := declared.token_eq }

/-- From a class that leaves out the arguments of its super class, the step up leads to a view that
has lost its bindings; from all others, to one with the same bindings. -/
theorem stepsRelated
    (entries : List.Forall₂ (ClassEntry.Loosened pool) pool.classes other.classes)
    (short : ∀ entry ∈ pool.classes, entry.BoundChainsWithin maxBoundChain) :
    pool.StepsRelated other (Loosened pool) := by
  intro view otherView loosened
  have erase_eq : view.erase none = otherView.erase none :=
    loosened.erase_eq (short _ loosened.member) ClassEntry.owns_none
  have targets := ClassPool.lookup?_rel entries fun _ _ loosened => loosened.name_eq.symm
  apply ClassPool.superType?_rel
  rcases loosened.entry.superReference with same |
    ⟨reference, target, extended, otherExtended, found, erases⟩
  · rw [← same]
    cases view.entry.superReference with
    | none => exact .none
    | some reference =>
        apply Option.Rel.some
        apply (targets reference.name).imp
        rintro target otherTarget ⟨member, loosenedTarget⟩
        refine ⟨member, loosenedTarget, .inl ?_⟩
        rw [superView, superView, erase_eq, loosenedTarget.header]
  · rw [extended, otherExtended]
    apply Option.Rel.some
    have target := targets reference.name
    rw [found] at target ⊢
    obtain ⟨otherTarget, otherFound, member, loosenedTarget⟩ := target.exists_of_some
    rw [otherFound]
    exact .some ⟨member, loosenedTarget, .inr ⟨erases.bindsAsDeclared view, List.zip_nil_right⟩⟩

theorem correspondence
    (entries : List.Forall₂ (ClassEntry.Loosened pool) pool.classes other.classes)
    (short : ∀ entry ∈ pool.classes, entry.BoundChainsWithin maxBoundChain) :
    pool.Correspondence other (Loosened pool) where
  name := fun _ _ loosened => loosened.entry.name_eq
  methods := fun _ _ loosened => loosened.corresponds (short _ loosened.member)
  steps := stepsRelated entries short

end TypeView.Loosened

/-! ## The definition without the arguments -/

theorem SuperReference.Refers.raw_of_generic {definitions : List ClassDef} {head : String}
    {arguments : List TypeExpr} {reference : SuperReference}
    (refers : Refers definitions (.generic head arguments) reference) :
    reference = ⟨head, arguments⟩ ∧ Refers definitions (.named head) ⟨head, []⟩ := by
  cases refers with
  | generic member isClass _ _ => exact ⟨rfl, .raw member isClass⟩

/-- The name in front of type arguments can stand alone, unless it is that of a type parameter. -/
theorem Denotes.head {scope : List String} {text head : String} {arguments : List TypeExpr}
    (denotes : Denotes scope text (.generic head arguments)) (unshadowed : head ∉ scope) :
    Denotes scope head (.named head) := by
  obtain ⟨written, parsed, resolved⟩ := denotes
  have wellFormed := TypeExpr.wellFormed_of_parse parsed
  have isName : Text.IsName head := by
    cases wellFormed.isType with
    | named _ =>
        rw [TypeExpr.resolve] at resolved
        split_ifs at resolved
    | generic isName _ _ =>
        cases resolved
        exact isName
    | array _ => cases resolved
  have named : (TypeExpr.named head).WellFormed := {
    isType := .named isName
    depth_le := le_trans wellFormed.isType.one_le_depth wellFormed.depth_le
    dimensions_le := Nat.zero_le _ }
  refine ⟨.named head, TypeExpr.parse_print named, ?_⟩
  rw [TypeExpr.resolve, if_neg (by simpa using unshadowed)]

/-- Arguments that mention no variables erase to the same names through every view. -/
theorem SuperReference.erasesAsDeclared_of_closed {reference : SuperReference} {target : ClassEntry}
    (closed : ∀ t ∈ reference.arguments, ∀ name, ¬ t.Mentions name) {view : TypeView}
    (erased : reference.arguments.map (view.erase none) =
      target.typeParameters.map fun parameter =>
        (TypeView.declaration target).erase none (.typeVar parameter.name)) :
    reference.ErasesAsDeclared target := by
  intro other
  rw [← erased]
  apply List.map_congr_left
  intro t member
  apply TypeExpr.erasure_congr
  intro name asked
  exact absurd (TypeExpr.Mentions.of_erasedVariable? asked) (closed t member name)

theorem ClassDef.exists_loosened {definitions others : List ClassDef} {definition : ClassDef}
    {text head : String} {arguments : List TypeExpr} (extending : definition.extending = some text)
    (denotes : Denotes definition.parameterNames text (.generic head arguments))
    (unshadowed : head ∉ definition.parameterNames)
    (refers : ∀ t reference, SuperReference.Refers definitions t reference →
      SuperReference.Refers others t reference)
    {pool : ClassPool} {target : ClassEntry} (found : pool.lookup? head = some target)
    (erases : (SuperReference.mk head arguments).ErasesAsDeclared target) {entry : ClassEntry}
    (describes : definition.Describes entry)
    (doesExtend : definition.Extends definitions entry.superReference) :
    ∃ otherEntry : ClassEntry, (definition.subclassing head).Describes otherEntry ∧
      (definition.subclassing head).Extends others otherEntry.superReference ∧
      entry.Loosened pool otherEntry := by
  have header : (definition.subclassing head).DescribesHeader entry.toClassHeader :=
    ⟨describes.name, describes.isInterface, describes.flags, describes.typeParameters⟩
  generalize extended : entry.superReference = superReference at doesExtend
  cases doesExtend with
  | interface _ notExtending | root _ notExtending _ | implicit _ notExtending _ =>
      rw [extending] at notExtending
      contradiction
  | explicit isClass extending' denotes' refers' =>
      obtain rfl := Option.some.inj (extending.symm.trans extending')
      obtain rfl := denotes.unique denotes'
      obtain ⟨rfl, refersRaw⟩ := refers'.raw_of_generic
      refine ⟨⟨entry.toClassHeader, some ⟨head, []⟩, entry.methods⟩, ⟨header, describes.methods⟩,
        ?_, rfl, rfl, ?_⟩
      · exact .explicit isClass rfl (denotes.head unshadowed) (refers _ _ refersRaw)
      · exact .inr ⟨_, target, extended, rfl, found, erases⟩

namespace ClassPool

variable {before after : List ClassDef} {definition : ClassDef} {pool : ClassPool}
  {text head : String} {arguments : List TypeExpr} {view target : TypeView}

/-- A class can leave out the type arguments of its super class if they mention no variables of the
class and erase to what the type parameters of the super class erase to in its declaration, provided
that the name of the super class is not that of a type parameter of the class.  The definitions are
accepted as before, and all methods have the signatures and the sorts that they had.

As the arguments mention no variables, it does not matter through which view they are erased. -/
theorem rawSuperClass_classifiedAlike
    (accepted : ofDefinitions (before ++ definition :: after) = .ok pool)
    (short : ∀ entry ∈ pool.classes, entry.BoundChainsWithin 32)
    (extending : definition.extending = some text)
    (denotes : Denotes definition.parameterNames text (.generic head arguments))
    (closed : ∀ t ∈ arguments, ∀ name, ¬ t.Mentions name)
    (isTarget : pool.find? head = some target)
    (erased : arguments.map (view.erase none) =
      target.entry.typeParameters.map fun parameter => target.erase none (.typeVar parameter.name))
    (unshadowed : head ∉ definition.parameterNames) :
    ∃ other, ofDefinitions (before ++ definition.subclassing head :: after) = .ok other ∧
      pool.ClassifiedAlike other := by
  have consistent := (ofDefinitions_eq_ok_iff.mp accepted).2
  have shortEnough : ∀ entry ∈ pool.classes, entry.BoundChainsWithin maxBoundChain :=
    fun entry member => (short entry member).mono (by decide)
  obtain ⟨targetEntry, found, rfl⟩ := Option.map_eq_some_iff.mp isTarget
  have erases : (SuperReference.mk head arguments).ErasesAsDeclared targetEntry :=
    SuperReference.erasesAsDeclared_of_closed closed erased
  have role : definition.SameRole (definition.subclassing head) := ⟨rfl, rfl, rfl⟩
  have congruent : ∀ entry ∈ pool.classes, ∀ otherEntry, entry.Loosened pool otherEntry →
      entry.Congruent otherEntry := fun _ _ _ loosened => loosened.congruent
  obtain ⟨other, otherAccepted, entries⟩ := ofDefinitions_exchanged accepted role
    (fun entry _ => .refl pool entry)
    (fun _ _ refers _ _ describes doesExtend => ClassDef.exists_loosened extending denotes
      unshadowed refers found erases describes doesExtend)
    congruent
  have otherConsistent := (ofDefinitions_eq_ok_iff.mp otherAccepted).2
  refine ⟨other, otherAccepted, ?_⟩
  apply (TypeView.Loosened.correspondence entries shortEnough).classifiedAlike consistent.acyclic
    otherConsistent.acyclic
  apply entries.imp_of_mem
  intro entry member otherEntry _ loosened
  exact ⟨member, loosened, .inl rfl⟩

/-- A class with a bounded type parameter. -/
def boundedBase : ClassDef :=
  { name := "a.Base", typeParameters := [{ name := "T", bound := some "java.lang.Number" }]
    methods := [{ name := "put", parameters := ["T"] }] }

/-- A subclass that extends the class with the bounded type parameter at the bound. -/
def boundedSub : ClassDef :=
  { name := "a.Sub", extending := some "a.Base<java.lang.Number>"
    methods := [{ name := "put", modifiers := [.bridge], parameters := ["java.lang.Number"] }] }

theorem rawSuperClass_classifiedAlike_scenario :
    ∃ pool, ofDefinitions [boundedBase, boundedSub] = .ok pool ∧
      ∃ view target, pool.find? "a.Sub" = some view ∧ pool.find? "a.Base" = some target ∧
        [TypeExpr.named "java.lang.Number"].map (view.erase none) =
          (target.entry.typeParameters.map fun parameter =>
            target.erase none (.typeVar parameter.name)) ∧
        ∃ other, ofDefinitions [boundedBase, boundedSub.subclassing "a.Base"] = .ok other ∧
          pool.ClassifiedAlike other := by
  obtain ⟨pool, accepted, short, view, target, isView, isTarget, erased⟩ :
      ∃ pool, ofDefinitions ([boundedBase] ++ boundedSub :: []) = .ok pool ∧
        (∀ entry ∈ pool.classes, entry.BoundChainsWithin 32) ∧
        ∃ view target, pool.find? "a.Sub" = some view ∧ pool.find? "a.Base" = some target ∧
          [TypeExpr.named "java.lang.Number"].map (view.erase none) =
            target.entry.typeParameters.map fun parameter =>
              target.erase none (.typeVar parameter.name) :=
    ⟨_, rfl, by decide +kernel, _, _, rfl, rfl, by decide +kernel⟩
  have closed : ∀ t ∈ [TypeExpr.named "java.lang.Number"], ∀ name, ¬ t.Mentions name := by
    intro t member name mentions
    rw [List.mem_singleton.mp member] at mentions
    cases mentions
  exact ⟨pool, accepted, view, target, isView, isTarget, erased,
    rawSuperClass_classifiedAlike accepted short rfl ⟨_, rfl, rfl⟩ closed isTarget erased
      (by decide)⟩

/-- A generic class in a package without a name. -/
def boxBase : ClassDef :=
  { name := "Box", typeParameters := [{ name := "T" }] }

/-- A subclass, one of whose type parameters has the name of its super class. -/
def shadowingSub : ClassDef :=
  { name := "a.Sub", typeParameters := [{ name := "Box" }]
    extending := some "Box<java.lang.Object>" }

/-- Without type arguments, the name of the super class denotes a type parameter of the same name,
and that is nothing to extend. -/
theorem rawSuperClass_may_be_typeParameter :
    ∃ pool, ofDefinitions [boxBase, shadowingSub] = .ok pool ∧
      (∀ entry ∈ pool.classes, entry.BoundChainsWithin 32) ∧
      Denotes shadowingSub.parameterNames "Box<java.lang.Object>" (.generic "Box" [.object]) ∧
      (∀ name, ¬ TypeExpr.object.Mentions name) ∧
      ∃ view target, pool.find? "a.Sub" = some view ∧ pool.find? "Box" = some target ∧
        [TypeExpr.object].map (view.erase none) =
          (target.entry.typeParameters.map fun parameter =>
            target.erase none (.typeVar parameter.name)) ∧
        ofDefinitions [boxBase, shadowingSub.subclassing "Box"] =
          .error (.invalidSuperType "a.Sub" "'Box' is not a class type") :=
  ⟨_, rfl, by decide +kernel, ⟨_, rfl, rfl⟩, nofun, _, _, rfl, rfl, by decide +kernel, rfl⟩

end ClassPool

end BridgeMethods
