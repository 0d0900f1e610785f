import BridgeMethods.Proofs.Pool.Hierarchy
import BridgeMethods.Proofs.TypeExpr.Parsing
import BridgeMethods.Proofs.TypeExpr.Variables

/-!
# Type variables in scope

The type variables in scope of a class are its type parameters; in a method of the class those of
the method are in scope too and come first.  The expressions of an accepted pool mention no other
variables.

A bound may be another variable, whose bound is followed in turn.  `IsBoundChain` is the sequence
of variables that are passed on the way.
-/

namespace BridgeMethods

/-- An expression comes from a text in which the names of a scope are type variables: it is denoted
by the text, or it is an argument in it.  A bound that is left out comes from no text. -/
inductive Written (scope : List String) : TypeExpr → Prop
  | object : Written scope .object
  | denoted {text : String} {t : TypeExpr} : Denotes scope text t → Written scope t
  | argument {text head : String} {arguments : List TypeExpr} {t : TypeExpr} :
      Denotes scope text (.generic head arguments) → t ∈ arguments → Written scope t

theorem Denotes.mem_of_mentions {scope : List String} {text name : String} {t : TypeExpr}
    (denotes : Denotes scope text t) (mentions : t.Mentions name) : name ∈ scope := by
  rcases denotes with ⟨written, parsed, rfl⟩
  have isType := (TypeExpr.wellFormed_of_parse parsed).isType
  rcases mentions.of_resolve with mentions | inScope
  · exact absurd mentions (TypeExpr.IsArgument.not_mentions (.type isType))
  · simpa using inScope

theorem Written.mem_of_mentions {scope : List String} {name : String} {t : TypeExpr}
    (written : Written scope t) (mentions : t.Mentions name) : name ∈ scope := by
  cases written with
  | object => cases mentions
  | denoted denotes => exact denotes.mem_of_mentions mentions
  | argument denotes member => exact denotes.mem_of_mentions (.generic member mentions)

theorem TypeVariableDef.Describes.written {scope : List String} {definition : TypeVariableDef}
    {parameter : TypeParameter} (describes : definition.Describes scope parameter) :
    Written scope parameter.bound := by
  rcases definition with ⟨_, bound⟩
  cases bound with
  | none => exact describes.2 ▸ .object
  | some text => exact .denoted describes.2

namespace ClassEntry

variable (entry : ClassEntry)

/-- If a method is given, it is a method of the class. -/
def Owns (method : Option MethodEntry) : Prop :=
  ∀ m, method = some m → m ∈ entry.methods

/-- The names of the type variables in scope of a class, or of a method of the class. -/
def variablesInScope (method : Option MethodEntry) : List String :=
  entry.typeParameters.map (·.name) ++
    (method.elim [] (·.typeParameters)).map (·.name)

/-- Something is true of every expression in a class, given the method that the expression stands
in, if it stands in one. -/
structure Each (holds : Option MethodEntry → TypeExpr → Prop) : Prop where
  bounds : ∀ parameter ∈ entry.typeParameters, holds none parameter.bound
  arguments : ∀ reference, entry.superReference = some reference →
    ∀ t ∈ reference.arguments, holds none t
  methodBounds : ∀ method ∈ entry.methods, ∀ parameter ∈ method.typeParameters,
    holds (some method) parameter.bound
  returnTypes : ∀ method ∈ entry.methods, holds (some method) method.returnType
  parameterTypes : ∀ method ∈ entry.methods, ∀ t ∈ method.parameterTypes, holds (some method) t

/-- All variables of an expression are in scope. -/
def Scoped (method : Option MethodEntry) (t : TypeExpr) : Prop :=
  ∀ name, t.Mentions name → name ∈ entry.variablesInScope method

/-- All variables of a class are in scope where they are mentioned. -/
def WellScoped : Prop :=
  entry.Each entry.Scoped

/-- The type parameter that a variable refers to, with the method that is in scope of its bound.
Type parameters of the method hide those of the class, whose bounds do not see the method. -/
def declared? (method : Option MethodEntry) (name : String) :
    Option (Option MethodEntry × TypeParameter) :=
  match method.bind fun m => TypeParameter.find? m.typeParameters name with
  | some parameter => some (method, parameter)
  | none => (TypeParameter.find? entry.typeParameters name).map fun parameter => (none, parameter)

/-- Type variables, each of which is the one that the erasure of the bound before it asks for. -/
def IsBoundChain : Option MethodEntry → List String → Prop
  | _, [] => True
  | method, name :: rest =>
      ∃ scope parameter, entry.declared? method name = some (scope, parameter) ∧
        (∀ next, rest.head? = some next → parameter.bound.erasedVariable? = some next) ∧
        IsBoundChain scope rest

/-- No chain of bounds, in the class or in a method of it, passes through more variables. -/
def BoundChainsWithin (limit : Nat) : Prop :=
  ∀ method, entry.Owns method →
    ∀ chain, entry.IsBoundChain method chain → chain.length ≤ limit

end ClassEntry

theorem TypeParameter.find?_eq_none_iff {parameters : List TypeParameter} {name : String} :
    find? parameters name = none ↔ name ∉ parameters.map (·.name) := by
  simp [find?]

theorem TypeParameter.mem_of_find? {parameters : List TypeParameter} {name : String}
    {parameter : TypeParameter} (found : find? parameters name = some parameter) :
    parameter ∈ parameters :=
  List.mem_of_find?_eq_some found

namespace ClassEntry

variable {entry : ClassEntry} {method : Option MethodEntry}

theorem owns_none : entry.Owns none :=
  nofun

theorem owns_some {m : MethodEntry} (member : m ∈ entry.methods) : entry.Owns (some m) := by
  rintro _ ⟨⟩
  exact member

theorem Each.imp {holds holds' : Option MethodEntry → TypeExpr → Prop} (each : entry.Each holds)
    (imp : ∀ method t, holds method t → holds' method t) : entry.Each holds' where
  bounds parameter member := imp _ _ (each.bounds parameter member)
  arguments reference extended t member := imp _ _ (each.arguments reference extended t member)
  methodBounds method methodMember parameter member :=
    imp _ _ (each.methodBounds method methodMember parameter member)
  returnTypes method member := imp _ _ (each.returnTypes method member)
  parameterTypes method methodMember t member :=
    imp _ _ (each.parameterTypes method methodMember t member)

/-- The method that an expression of a class stands in is one of the class. -/
theorem Each.owned {holds : Option MethodEntry → TypeExpr → Prop} (each : entry.Each holds) :
    entry.Each fun method t => entry.Owns method ∧ holds method t where
  bounds parameter member := ⟨owns_none, each.bounds parameter member⟩
  arguments reference extended t member := ⟨owns_none, each.arguments reference extended t member⟩
  methodBounds method methodMember parameter member :=
    ⟨owns_some methodMember, each.methodBounds method methodMember parameter member⟩
  returnTypes method member := ⟨owns_some member, each.returnTypes method member⟩
  parameterTypes method methodMember t member :=
    ⟨owns_some methodMember, each.parameterTypes method methodMember t member⟩

theorem variablesInScope_none :
    entry.variablesInScope none = entry.typeParameters.map (·.name) := by
  simp [variablesInScope]

/-- What is in scope is declared, and nothing else. -/
theorem declared?_eq_none_iff {name : String} :
    entry.declared? method name = none ↔ name ∉ entry.variablesInScope method := by
  rw [variablesInScope, List.mem_append, not_or, ← TypeParameter.find?_eq_none_iff,
    ← TypeParameter.find?_eq_none_iff]
  cases method with
  | none =>
      rw [declared?, Option.bind_none, Option.map_eq_none_iff]
      exact (and_iff_left rfl).symm
  | some m =>
      rw [declared?, Option.bind_some, Option.elim_some]
      cases ofMethod : TypeParameter.find? m.typeParameters name with
      | some parameter => simp
      | none => simp

theorem exists_declared {name : String} (inScope : name ∈ entry.variablesInScope method) :
    ∃ scope parameter, entry.declared? method name = some (scope, parameter) := by
  cases declared : entry.declared? method name with
  | none => exact absurd inScope (declared?_eq_none_iff.mp declared)
  | some found => exact ⟨found.1, found.2, rfl⟩

/-! ## Chains of bounds -/

theorem isBoundChain_cons_iff {name : String} {rest : List String} :
    entry.IsBoundChain method (name :: rest) ↔
      ∃ scope parameter, entry.declared? method name = some (scope, parameter) ∧
        (∀ next, rest.head? = some next → parameter.bound.erasedVariable? = some next) ∧
        entry.IsBoundChain scope rest :=
  Iff.rfl

theorem mem_of_isBoundChain {name : String} {rest : List String}
    (chain : entry.IsBoundChain method (name :: rest)) : name ∈ entry.variablesInScope method := by
  rcases chain with ⟨scope, parameter, declared, _⟩
  by_contra notInScope
  rw [declared?_eq_none_iff.mpr notInScope] at declared
  contradiction

/-- Whether the bounds that start at a variable pass through no more variables than given. -/
def settles (entry : ClassEntry) : Nat → Option MethodEntry → String → Bool
  | 0, method, name => (entry.declared? method name).isNone
  | limit + 1, method, name =>
      match entry.declared? method name with
      | none => true
      | some (scope, parameter) =>
          match parameter.bound.erasedVariable? with
          | none => true
          | some next => entry.settles limit scope next

theorem settles_eq_true_iff {limit : Nat} {name : String} :
    entry.settles limit method name = true ↔
      ∀ rest, entry.IsBoundChain method (name :: rest) → rest.length < limit := by
  induction limit generalizing method name with
  | zero =>
      rw [settles, Option.isNone_iff_eq_none]
      constructor
      · rintro undeclared rest ⟨scope, parameter, declared, _⟩
        rw [undeclared] at declared
        contradiction
      · intro short
        cases declared : entry.declared? method name with
        | none => rfl
        | some found =>
            exact absurd (short [] ⟨found.1, found.2, declared, nofun, trivial⟩)
              (Nat.not_lt_zero _)
  | succ limit ih =>
      rw [settles]
      cases declared : entry.declared? method name with
      | none => simp [isBoundChain_cons_iff, declared]
      | some found =>
          rcases found with ⟨scope, parameter⟩
          simp only [isBoundChain_cons_iff, declared]
          cases asked : parameter.bound.erasedVariable? with
          | none =>
              apply iff_of_true rfl
              rintro rest ⟨_, _, ⟨⟩, leadsOn, _⟩
              cases rest with
              | nil => exact Nat.succ_pos limit
              | cons next rest => simp [asked] at leadsOn
          | some next =>
              rw [ih]
              constructor
              · rintro short rest ⟨_, _, ⟨⟩, leadsOn, chain⟩
                cases rest with
                | nil => exact Nat.succ_pos limit
                | cons other rest =>
                    obtain rfl : next = other :=
                      Option.some.inj (asked.symm.trans (leadsOn other rfl))
                    exact Nat.succ_lt_succ (short rest chain)
              · intro short rest chain
                have longer := short (next :: rest)
                  ⟨scope, parameter, rfl, fun other same => by cases same; exact asked, chain⟩
                exact Nat.lt_of_succ_lt_succ longer

theorem boundChainsWithin_iff {limit : Nat} :
    entry.BoundChainsWithin limit ↔
      (∀ name ∈ entry.variablesInScope none, entry.settles limit none name = true) ∧
        ∀ m ∈ entry.methods, ∀ name ∈ entry.variablesInScope (some m),
          entry.settles limit (some m) name = true := by
  simp only [settles_eq_true_iff]
  constructor
  · intro short
    exact ⟨fun name _ rest chain => short none owns_none (name :: rest) chain,
      fun m member name _ rest chain => short (some m) (owns_some member) (name :: rest) chain⟩
  · rintro ⟨shortInClass, shortInMethods⟩ method owns chain isChain
    cases chain with
    | nil => exact Nat.zero_le limit
    | cons name rest =>
        have inScope := mem_of_isBoundChain isChain
        cases method with
        | none => exact shortInClass name inScope rest isChain
        | some m => exact shortInMethods m (owns m rfl) name inScope rest isChain

instance (limit : Nat) : Decidable (entry.BoundChainsWithin limit) :=
  decidable_of_iff _ boundChainsWithin_iff.symm

theorem BoundChainsWithin.mono {limit limit' : Nat} (short : entry.BoundChainsWithin limit)
    (le : limit ≤ limit') : entry.BoundChainsWithin limit' :=
  fun method owns chain isChain => (short method owns chain isChain).trans le

end ClassEntry

namespace ClassDef

variable {definitions : List ClassDef} {definition : ClassDef} {entry : ClassEntry}

theorem Describes.variablesInScope_none (describes : definition.Describes entry) :
    entry.variablesInScope none = definition.parameterNames :=
  ClassEntry.variablesInScope_none.trans (names_eq_of_describes describes.typeParameters)

theorem Describes.variablesInScope_some (describes : definition.Describes entry)
    {methodDefinition : MethodDef} {method : MethodEntry}
    (methodDescribes : methodDefinition.Describes definition.parameterNames method) :
    entry.variablesInScope (some method) =
      definition.parameterNames ++ methodDefinition.parameterNames := by
  have names : entry.typeParameters.map (·.name) = definition.parameterNames :=
    names_eq_of_describes describes.typeParameters
  have methodNames : method.typeParameters.map (·.name) = methodDefinition.parameterNames :=
    names_eq_of_describes methodDescribes.typeParameters
  simp [ClassEntry.variablesInScope, names, methodNames]

theorem Extends.written {reference : SuperReference}
    (doesExtend : definition.Extends definitions (some reference)) {t : TypeExpr}
    (member : t ∈ reference.arguments) : Written definition.parameterNames t := by
  cases doesExtend with
  | implicit => cases member
  | explicit _ _ denotes refers =>
      cases refers with
      | raw => cases member
      | generic => exact .argument denotes member

theorem Describes.each_written (describes : definition.Describes entry)
    (doesExtend : definition.Extends definitions entry.superReference) :
    entry.Each fun method => Written (entry.variablesInScope method) where
  bounds := by
    intro parameter member
    rcases describes.typeParameters.exists_of_mem_right member with ⟨_, _, parameterDescribes⟩
    exact describes.variablesInScope_none ▸ parameterDescribes.written
  arguments := by
    intro reference extended t member
    exact describes.variablesInScope_none ▸ (extended ▸ doesExtend).written member
  methodBounds := by
    intro method methodMember parameter member
    rcases describes.methods.exists_of_mem_right methodMember with ⟨_, _, methodDescribes⟩
    obtain ⟨_, _, parameterDescribes⟩ :=
      methodDescribes.typeParameters.exists_of_mem_right member
    exact describes.variablesInScope_some methodDescribes ▸ parameterDescribes.written
  returnTypes := by
    intro method methodMember
    rcases describes.methods.exists_of_mem_right methodMember with ⟨_, _, methodDescribes⟩
    exact describes.variablesInScope_some methodDescribes ▸ .denoted methodDescribes.returnType
  parameterTypes := by
    intro method methodMember t member
    rcases describes.methods.exists_of_mem_right methodMember with ⟨_, _, methodDescribes⟩
    rcases methodDescribes.parameterTypes.exists_of_mem_right member with ⟨_, _, denotes⟩
    exact describes.variablesInScope_some methodDescribes ▸ .denoted denotes

end ClassDef

namespace ClassPool.Means

variable {definitions : List ClassDef} {pool : ClassPool} {entry : ClassEntry}

theorem each_written (means : pool.Means definitions) (member : entry ∈ pool.classes) :
    entry.Each fun method => Written (entry.variablesInScope method) := by
  rcases means.classes.exists_of_mem_right member with ⟨definition, _, describes, doesExtend⟩
  exact describes.each_written doesExtend

theorem wellScoped (means : pool.Means definitions) (member : entry ∈ pool.classes) :
    entry.WellScoped :=
  (means.each_written member).imp fun _ _ written _ => written.mem_of_mentions

end ClassPool.Means

end BridgeMethods
