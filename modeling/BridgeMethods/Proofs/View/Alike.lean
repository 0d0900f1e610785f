import BridgeMethods.Bridge

/-!
# Views that look alike

Much of a class does not show when it is looked at through a view.  The rules for methods see its
name, whether it is an interface, whether it is final, and its type parameters; of a method they see
all but who may call it and whether a compiler made it up.  Views and methods that agree in what is
seen are `Alike`, and they are erased to the same types.

The rules do not see how the types of a method are written, they only see what is left of them
after erasure.  Methods that agree as far as that goes correspond to each other, and the rules that
look at a single method say the same of both.
-/

namespace BridgeMethods

/-- Whether a modifier says nothing that a rule asks for. -/
def Modifier.isUnseen : Modifier → Bool
  | .public | .protected | .synthetic => true
  | _ => false

/-- Two headers of classes agree in what is seen. -/
structure ClassHeader.Alike (header other : ClassHeader) : Prop where
  name : header.name = other.name
  isInterface : header.isInterface = other.isInterface
  isFinal : header.flags.has .final = other.flags.has .final
  typeParameters : header.typeParameters = other.typeParameters

/-- Two methods agree in what is seen. -/
structure MethodEntry.Alike (method other : MethodEntry) : Prop where
  internalName : method.internalName = other.internalName
  flags : ∀ m : Modifier, m.isUnseen = false → method.flags.has m = other.flags.has m
  typeParameters : method.typeParameters = other.typeParameters
  returnType : method.returnType = other.returnType
  parameterTypes : method.parameterTypes = other.parameterTypes

/-- Two views agree in what is seen. -/
structure TypeView.Alike (view other : TypeView) : Prop where
  header : view.entry.toClassHeader.Alike other.entry.toClassHeader
  bindings : view.bindings = other.bindings

/-- Two methods that are seen through views agree in what is seen. -/
structure MethodView.Alike (method other : MethodView) : Prop where
  owner : method.owner.Alike other.owner
  entry : method.entry.Alike other.entry

/-- Two methods, seen through views, agree in their erased types, both as they are seen and as they
are declared, and in all else that a rule sees. -/
structure MethodView.Corresponds (method other : MethodView) : Prop where
  ownerName : method.owner.name = other.owner.name
  isInterface : method.owner.isInterface = other.owner.isInterface
  isFinal : method.owner.isFinal = other.owner.isFinal
  flags : ∀ m : Modifier, m.isUnseen = false → method.flags.has m = other.flags.has m
  token : method.token = other.token
  declaredToken : method.asDeclared.token = other.asDeclared.token

theorem ClassHeader.Alike.refl (header : ClassHeader) : header.Alike header :=
  ⟨rfl, rfl, rfl, rfl⟩

theorem MethodEntry.Alike.refl (method : MethodEntry) : method.Alike method :=
  ⟨rfl, fun _ _ => rfl, rfl, rfl, rfl⟩

theorem MethodView.Corresponds.refl (method : MethodView) : method.Corresponds method :=
  ⟨rfl, rfl, rfl, fun _ _ => rfl, rfl, rfl⟩

theorem TypeView.owner_of_mem_methods {view : TypeView} {method : MethodView}
    (member : method ∈ view.methods) : method.owner = view := by
  rcases List.mem_map.mp member with ⟨entry, _, rfl⟩
  rfl

theorem TypeView.entry_mem_of_mem_methods {view : TypeView} {method : MethodView}
    (member : method ∈ view.methods) : method.entry ∈ view.entry.methods := by
  rcases List.mem_map.mp member with ⟨entry, entryMember, rfl⟩
  exact entryMember

/-- Whether a method is overridable and has a token. -/
def MethodView.isOverridableWith (token : MethodToken) (method : MethodView) : Bool :=
  method.isOverridable && method.token = token

theorem TypeView.overridableWith?_eq_find? (view : TypeView) (token : MethodToken) :
    view.overridableWith? token = view.methods.find? (·.isOverridableWith token) := by
  rw [overridableWith?, List.find?_filter]
  refine congrArg (view.methods.find? ·) (funext fun method => ?_)
  rw [MethodView.isOverridableWith, Bool.eq_iff_iff, decide_eq_true_iff, Bool.and_eq_true]

/-- Whether a method that is not the given one has its name and its parameter types. -/
def MethodView.isSiblingOf (method candidate : MethodView) : Bool :=
  !candidate.sameAs method && candidate.internalName = method.internalName &&
    candidate.parameterTypes = method.parameterTypes

theorem MethodView.isReturnTypeBridge_eq (method : MethodView) :
    method.isReturnTypeBridge =
      (method.isBridge && method.owner.methods.any method.isSiblingOf) :=
  rfl

theorem MethodView.signature_eq_of_token_eq {method other : MethodView}
    (same : method.token = other.token) : method.signature = other.signature := by
  have fields := MethodToken.mk.inj same
  rw [signature, signature, fields.1, fields.2.1, fields.2.2]

theorem MethodView.isDeclared_iff {method : MethodView} :
    method.isDeclared = true ↔ method.token = method.asDeclared.token := by
  have sameOwner : method.owner.name = method.asDeclared.owner.name := rfl
  simp [isDeclared, sameAs, sameOwner]

/-! ## Views and methods that agree in what is seen -/

namespace TypeView.Alike

variable {view other : TypeView}

theorem asDeclaration (alike : view.Alike other) : view.asDeclaration.Alike other.asDeclaration :=
  ⟨alike.header, rfl⟩

theorem eraseVar_eq (alike : view.Alike other) {method otherMethod : Option MethodEntry}
    (sameParameters : method.map (·.typeParameters) = otherMethod.map (·.typeParameters))
    (budget : Nat) (name : String) :
    view.eraseVar budget method name = other.eraseVar budget otherMethod name := by
  induction budget generalizing method otherMethod name with
  | zero => rfl
  | succ budget ih =>
      have ofMethod : (method.bind fun m => TypeParameter.find? m.typeParameters name) =
          otherMethod.bind fun m => TypeParameter.find? m.typeParameters name := by
        have found := congrArg (·.bind (TypeParameter.find? · name)) sameParameters
        simpa only [Option.bind_map, Function.comp_def] using found
      have inMethod : view.eraseVar budget method = other.eraseVar budget otherMethod :=
        funext (ih sameParameters)
      have inClass : view.eraseVar budget none = other.eraseVar budget none := funext (ih rfl)
      simp only [eraseVar, ofMethod, inMethod, inClass, alike.bindings,
        alike.header.typeParameters]

theorem erase_eq (alike : view.Alike other) {method otherMethod : Option MethodEntry}
    (sameParameters : method.map (·.typeParameters) = otherMethod.map (·.typeParameters)) :
    view.erase method = other.erase otherMethod := by
  funext t
  rw [erase, erase, funext (alike.eraseVar_eq sameParameters maxBoundChain)]

end TypeView.Alike

namespace MethodView.Alike

variable {method other : MethodView}

theorem asDeclared (alike : method.Alike other) : method.asDeclared.Alike other.asDeclared :=
  ⟨alike.owner.asDeclaration, alike.entry⟩

theorem token_eq (alike : method.Alike other) : method.token = other.token := by
  have erase_eq : method.owner.erase (some method.entry) = other.owner.erase (some other.entry) :=
    alike.owner.erase_eq (congrArg some alike.entry.typeParameters)
  rw [token, token, internalName, internalName, returnType, returnType, parameterTypes,
    parameterTypes, erase_eq, alike.entry.internalName, alike.entry.returnType,
    alike.entry.parameterTypes]

theorem corresponds (alike : method.Alike other) : method.Corresponds other where
  ownerName := alike.owner.header.name
  isInterface := alike.owner.header.isInterface
  isFinal := alike.owner.header.isFinal
  flags := alike.entry.flags
  token := alike.token_eq
  declaredToken := alike.asDeclared.token_eq

end MethodView.Alike

/-! ## Methods that correspond -/

namespace MethodView.Corresponds

variable {method other : MethodView}

theorem internalName_eq (corresponds : method.Corresponds other) :
    method.internalName = other.internalName :=
  congrArg (·.internalName) corresponds.token

theorem parameterTypes_eq (corresponds : method.Corresponds other) :
    method.parameterTypes = other.parameterTypes :=
  congrArg (·.parameterTypes) corresponds.token

theorem signature_eq (corresponds : method.Corresponds other) :
    method.signature = other.signature :=
  signature_eq_of_token_eq corresponds.token

theorem sameAs_eq {wanted otherWanted : MethodView} (corresponds : method.Corresponds other)
    (wantedCorresponds : wanted.Corresponds otherWanted) :
    method.sameAs wanted = other.sameAs otherWanted := by
  rw [sameAs, sameAs, corresponds.token, wantedCorresponds.token, corresponds.ownerName,
    wantedCorresponds.ownerName]

theorem isSiblingOf_eq (corresponds : method.Corresponds other)
    {candidate otherCandidate : MethodView}
    (candidateCorresponds : candidate.Corresponds otherCandidate) :
    method.isSiblingOf candidate = other.isSiblingOf otherCandidate := by
  rw [isSiblingOf, isSiblingOf, candidateCorresponds.sameAs_eq corresponds,
    candidateCorresponds.internalName_eq, corresponds.internalName_eq,
    candidateCorresponds.parameterTypes_eq, corresponds.parameterTypes_eq]

theorem isDeclared_eq (corresponds : method.Corresponds other) :
    method.isDeclared = other.isDeclared := by
  rw [Bool.eq_iff_iff, isDeclared_iff, isDeclared_iff, corresponds.token, corresponds.declaredToken]

theorem isConstructor_eq (corresponds : method.Corresponds other) :
    method.isConstructor = other.isConstructor := by
  rw [isConstructor, isConstructor, corresponds.internalName_eq]

theorem isTypeInitializer_eq (corresponds : method.Corresponds other) :
    method.isTypeInitializer = other.isTypeInitializer := by
  rw [isTypeInitializer, isTypeInitializer, corresponds.internalName_eq]

theorem isMethod_eq (corresponds : method.Corresponds other) :
    method.isMethod = other.isMethod := by
  rw [isMethod, isMethod, corresponds.isConstructor_eq, corresponds.isTypeInitializer_eq]

theorem isBridge_eq (corresponds : method.Corresponds other) : method.isBridge = other.isBridge :=
  corresponds.flags .bridge rfl

theorem isOverridable_eq (corresponds : method.Corresponds other) :
    method.isOverridable = other.isOverridable := by
  rw [isOverridable, isOverridable, corresponds.isMethod_eq, corresponds.flags .static rfl,
    corresponds.flags .private rfl, corresponds.flags .final rfl, corresponds.isFinal]

theorem isOverridableWith_eq (corresponds : method.Corresponds other) (token : MethodToken) :
    method.isOverridableWith token = other.isOverridableWith token := by
  rw [isOverridableWith, isOverridableWith, corresponds.isOverridable_eq, corresponds.token]

theorem isDefaultMethod_eq (corresponds : method.Corresponds other) :
    method.isDefaultMethod = other.isDefaultMethod := by
  rw [isDefaultMethod, isDefaultMethod, corresponds.isMethod_eq, corresponds.isInterface,
    corresponds.flags .static rfl, corresponds.flags .private rfl, corresponds.isBridge_eq,
    corresponds.flags .abstract rfl]

end MethodView.Corresponds

end BridgeMethods
