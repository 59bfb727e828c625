/-
# Which resolver takes an object

No two resolvers take the same object: the form of an object decides among literal addresses, tags
and functions, and a resource name has one service and one type, which are in the table of one
resolver at most.  So the order of a chain does not matter, nor how often a resolver stands in it.
The resolver that takes an object fails only if the inventory does; that nobody takes an object is
told for exactly those that no resolver takes.

* `Resolver.resourceTypes`, `Resolver.Takes` : what a resolver takes;
* `Resolver.Takes.unique` : no two resolvers take the same value;
* `Resolver.chooseFor?_eq_some_iff`, `chooseFor?_congr` : chains with the same resolvers;
* `Resolver.closed_resolve` : what holds of all queries holds of resolving;
* `Resolver.raises_resolve` : what the errors of resolving are;
* `Resolver.perform_resolveBy_noResolver_iff` : when it is told that nobody takes an object;
* `Resolver.resolveBy_dispatch` : resolving by the standard chain in any order.
-/
import Firewall.Proofs.Action
import Firewall.Resolver.Lookup

namespace Firewall

/-- What a name is of is told by its service and its type together. -/
theorem Arn.isOf_iff {a : Arn} {service resourceType : String} :
    a.isOf service resourceType = true ↔ (a.service, a.resourceType) = (service, resourceType) := by
  unfold isOf
  rw [Bool.and_eq_true, decide_eq_true_iff, decide_eq_true_iff, Prod.mk.injEq]

namespace Resolver

/-! ## What resolvers take -/

/-- The services and types of the resources that a resolver takes by their names. -/
def resourceTypes : Resolver → List (String × String)
  | ec2 => [("ec2", "instance"), ("ec2", "security-group")]
  | network => [("ec2", "vpc"), ("ec2", "subnet")]
  | asg => [("autoscaling", "autoScalingGroup")]
  | address | tagged | lambda => []

/-- The name is of a resource with a type in the table of the resolver. -/
def TakesArn (r : Resolver) (a : Arn) : Prop := ∃ p ∈ r.resourceTypes, a.isOf p.1 p.2 = true

/-- The values that a resolver takes. -/
def Takes (r : Resolver) : ObjectValue → Prop
  | .address text => r = address ∧ Address.isLiteral text = true
  | .arn name => ∃ a, Arn.ofText? name = some a ∧ r.TakesArn a
  | .tagged _ => r = tagged
  | .lambda _ => r = lambda

/-- No type of resource is in the tables of two resolvers. -/
theorem eq_of_mem_resourceTypes {r r' : Resolver} {p : String × String}
    (h : p ∈ r.resourceTypes) (h' : p ∈ r'.resourceTypes) : r = r' := by
  revert p
  cases r <;> cases r' <;> decide

/-- A name is of one service and one type, so one resolver at most takes it. -/
theorem TakesArn.unique {r r' : Resolver} {a : Arn} (h : r.TakesArn a) (h' : r'.TakesArn a) :
    r = r' := by
  obtain ⟨p, hp, hof⟩ := h
  obtain ⟨p', hp', hof'⟩ := h'
  have hpp : p = p' := (Arn.isOf_iff.1 hof).symm.trans (Arn.isOf_iff.1 hof')
  exact eq_of_mem_resourceTypes hp (hpp ▸ hp')

/-- **No two resolvers take the same value.** -/
theorem Takes.unique {r r' : Resolver} {v : ObjectValue} (h : r.Takes v) (h' : r'.Takes v) :
    r = r' := by
  cases v with
  | address text => exact h.1.trans h'.1.symm
  | arn name =>
    obtain ⟨a, ha, ht⟩ := h
    obtain ⟨a', ha', ht'⟩ := h'
    cases ha.symm.trans ha'
    exact ht.unique ht'
  | tagged tags => exact h.trans h'.symm
  | lambda raw => exact h.trans h'.symm

/-! ## Accepting an object -/

section Targets

variable (o : FlowObject)

theorem ec2Target?_isSome_iff :
    (ec2Target? o).isSome = true ↔ ∃ a, arnOf? o = some a ∧ ec2.TakesArn a := by
  unfold ec2Target? TakesArn
  cases arnOf? o <;> simp [resourceTypes]

theorem networkTarget?_isSome_iff :
    (networkTarget? o).isSome = true ↔ ∃ a, arnOf? o = some a ∧ network.TakesArn a := by
  unfold networkTarget? TakesArn
  cases arnOf? o with
  | none => simp
  | some a =>
    rw [Option.bind_some]
    -- the subnet is looked at only if the name is not that of a network
    split
    · next hvpc => simp [resourceTypes, hvpc]
    · next hvpc => split <;> next hsubnet => simp [resourceTypes, hvpc, hsubnet]

theorem asgTarget?_isSome_iff :
    (asgTarget? o).isSome = true ↔ ∃ a, arnOf? o = some a ∧ asg.TakesArn a := by
  unfold asgTarget? TakesArn
  cases arnOf? o <;> simp [resourceTypes]

end Targets

/-- **A resolver accepts an object** exactly if it takes its value. -/
theorem accepts_iff (r : Resolver) (o : FlowObject) : r.accepts o = true ↔ r.Takes o.value := by
  obtain ⟨id, v⟩ := o
  cases r with
  | ec2 =>
    show (ec2Target? _).isSome = true ↔ _
    rw [ec2Target?_isSome_iff]
    cases v <;> simp [Takes, arnOf?]
  | network =>
    show (networkTarget? _).isSome = true ↔ _
    rw [networkTarget?_isSome_iff]
    cases v <;> simp [Takes, arnOf?]
  | asg =>
    show (asgTarget? _).isSome = true ↔ _
    rw [asgTarget?_isSome_iff]
    cases v <;> simp [Takes, arnOf?]
  | address => cases v <;> simp [Takes, TakesArn, resourceTypes, accepts, literal?]
  | tagged => cases v <;> simp [Takes, TakesArn, resourceTypes, accepts, tags?]
  | lambda => cases v <;> simp [Takes, TakesArn, resourceTypes, accepts, functionTag?]

theorem accepts_unique {r r' : Resolver} {o : FlowObject} (h : r.accepts o = true)
    (h' : r'.accepts o = true) : r = r' :=
  ((accepts_iff r o).1 h).unique ((accepts_iff r' o).1 h')

/-! ## Chains -/

theorem mem_standard (r : Resolver) : r ∈ standard := by
  cases r <;> decide

theorem accepts_of_chooseFor? {chain : List Resolver} {o : FlowObject} {r : Resolver}
    (h : chooseFor? chain o = some r) : r.accepts o = true := by
  have haccepts := List.find?_some h
  exact haccepts

/-- The resolver that is chosen is the one of the chain that accepts the object, wherever it
stands. -/
theorem chooseFor?_eq_some_iff {chain : List Resolver} {o : FlowObject} {r : Resolver} :
    chooseFor? chain o = some r ↔ r ∈ chain ∧ r.accepts o = true := by
  constructor
  · intro h
    exact ⟨List.mem_of_find?_eq_some h, accepts_of_chooseFor? h⟩
  · rintro ⟨hr, haccepts⟩
    cases h : chooseFor? chain o with
    | none => exact absurd haccepts (List.find?_eq_none.1 h r hr)
    | some r' => rw [accepts_unique haccepts (accepts_of_chooseFor? h)]

theorem chooseFor?_eq_none_iff {chain : List Resolver} {o : FlowObject} :
    chooseFor? chain o = none ↔ ∀ r ∈ chain, r.accepts o = false := by
  unfold chooseFor?
  simp only [List.find?_eq_none, Bool.not_eq_true]

/-- **Chains with the same resolvers** choose the same one for every object. -/
theorem chooseFor?_congr {chain chain' : List Resolver} (h : ∀ r, r ∈ chain ↔ r ∈ chain')
    (o : FlowObject) : chooseFor? chain o = chooseFor? chain' o := by
  apply Option.ext
  intro r
  rw [chooseFor?_eq_some_iff, chooseFor?_eq_some_iff, h]

/-! ## Properties of queries -/

section Queries

variable {σ : Type} {source : Inventory.Source σ} {bundle : Option Bundle}
  {P : ∀ α : Type, Action σ α → Prop} (hP : Action.Closed P)
  (hask : ∀ q, P (List Json) (source.ask bundle q))
include hP hask

theorem closed_interfaceAddresses (ids : List String) (further : List Inventory.Predicate) :
    P _ (interfaceAddresses source bundle ids further) :=
  hP.bind (hask _) fun _ => hP.pure _

theorem closed_resolveAsg (o : FlowObject) (arn : Arn) : P _ (resolveAsg source bundle o arn) := by
  apply hP.bind (hask _)
  intro rows
  dsimp only
  split
  · exact hP.pure _
  · apply hP.bind
    · exact hP.mapM (fun id => closed_interfaceAddresses hP hask [id] []) _
    · exact fun _ => hP.pure _

theorem closed_resolveTagged (o : FlowObject) (tags : List Tag) :
    P _ (resolveTagged source bundle o tags) := by
  unfold resolveTagged
  split
  · exact hP.pure _
  · exact hP.bind (hask _) fun _ => hP.pure _

theorem closed_resolveLambda (o : FlowObject) (raw : Json.Ordered) :
    P _ (resolveLambda source bundle o raw) := by
  unfold resolveLambda
  split
  · apply hP.bind (hask _)
    intro rows
    dsimp only
    split
    · exact hP.pure _
    · exact hP.bind (closed_interfaceAddresses hP hask _ _) fun _ => hP.pure _
  · exact hP.pure _

/-- **A resolver that accepts an object** does nothing but ask queries, so it has every property that
goes over from the queries to sequences of them. -/
theorem closed_resolve {o : FlowObject} {r : Resolver} (h : r.accepts o = true) :
    P _ (r.resolve source bundle o) := by
  cases r with
  | address =>
    obtain ⟨text, ho⟩ := Option.isSome_iff_exists.1 h
    rw [resolve, ho]
    exact hP.pure _
  | ec2 =>
    obtain ⟨arn, ho⟩ := Option.isSome_iff_exists.1 h
    rw [resolve, ho]
    exact hP.bind (closed_interfaceAddresses hP hask _ _) fun _ => hP.pure _
  | network =>
    obtain ⟨target, ho⟩ := Option.isSome_iff_exists.1 h
    rw [resolve, ho]
    exact hP.bind (hask _) fun _ => hP.pure _
  | asg =>
    obtain ⟨arn, ho⟩ := Option.isSome_iff_exists.1 h
    rw [resolve, ho]
    exact closed_resolveAsg hP hask o arn
  | tagged =>
    obtain ⟨tags, ho⟩ := Option.isSome_iff_exists.1 h
    rw [resolve, ho]
    exact closed_resolveTagged hP hask o tags
  | lambda =>
    obtain ⟨raw, ho⟩ := Option.isSome_iff_exists.1 h
    rw [resolve, ho]
    exact closed_resolveLambda hP hask o raw

end Queries

/-! ## The errors of resolving -/

end Resolver

/-- An inventory reports an error for some query on behalf of a bundle. -/
def Inventory.Source.Reports {σ : Type} (source : Inventory.Source σ) (bundle : Option Bundle)
    (e : Error) : Prop :=
  ∃ q s t, (source.ask bundle q).perform s = (.error e, t)

namespace Resolver

section Errors

variable {σ : Type} (source : Inventory.Source σ) (bundle : Option Bundle) (o : FlowObject)

theorem raises_ask (q : Inventory.Query) :
    Action.Raises (source.Reports bundle) (source.ask bundle q) :=
  fun s _ t h => ⟨q, s, t, h⟩

/-- **A resolver that accepts an object** fails only with what the inventory reports. -/
theorem raises_resolve {r : Resolver} (h : r.accepts o = true) :
    Action.Raises (source.Reports bundle) (r.resolve source bundle o) :=
  closed_resolve (Action.closed_raises _) (raises_ask source bundle) h

end Errors

/-! ## The standard chain in any order -/

section Dispatch

variable {σ : Type} {chain : List Resolver} (source : Inventory.Source σ)
  (bundle : Option Bundle) (o : FlowObject)

theorem resolveBy_of_accepts {r : Resolver} (hr : r ∈ chain) (h : r.accepts o = true) :
    resolveBy chain source bundle o = r.resolve source bundle o := by
  unfold resolveBy
  rw [chooseFor?_eq_some_iff.2 ⟨hr, h⟩]

theorem resolveBy_of_not_accepts (h : ∀ r ∈ chain, r.accepts o = false) :
    resolveBy chain source bundle o = throw (unsupported o) := by
  unfold resolveBy
  rw [chooseFor?_eq_none_iff.2 h]

variable {o} in
theorem resolveBy_of_tagged (h : tagged ∈ chain) {tags : List Tag} (ho : o.value = .tagged tags) :
    resolveBy chain source bundle o = resolveTagged source bundle o tags := by
  have haccepts : tagged.accepts o = true := by
    rw [accepts_iff, ho]
    rfl
  rw [resolveBy_of_accepts source bundle o h haccepts]
  simp only [resolve, tags?, ho]

variable {o} in
theorem resolveBy_of_lambda (h : lambda ∈ chain) {raw : Json.Ordered} (ho : o.value = .lambda raw) :
    resolveBy chain source bundle o = resolveLambda source bundle o raw := by
  have haccepts : lambda.accepts o = true := by
    rw [accepts_iff, ho]
    rfl
  rw [resolveBy_of_accepts source bundle o h haccepts]
  simp only [resolve, functionTag?, ho]

/-- No resolver that accepts an object tells that nobody takes it, unless the inventory does. -/
theorem raises_resolve_of_not_reports
    (hsource : ∀ id type, ¬ source.Reports bundle (.noResolver id type)) {r : Resolver}
    (h : r.accepts o = true) :
    Action.Raises (fun e => ∀ id type, e ≠ .noResolver id type) (r.resolve source bundle o) := by
  rintro s _ t herror id type rfl
  exact hsource id type (raises_resolve source bundle o h s _ t herror)

/-- **That nobody takes an object is told** exactly if no resolver of the chain accepts it. -/
theorem perform_resolveBy_noResolver_iff
    (hsource : ∀ id type, ¬ source.Reports bundle (.noResolver id type)) {s t : σ}
    {id type : String} :
    (resolveBy chain source bundle o).perform s = (.error (.noResolver id type), t) ↔
      (∀ r ∈ chain, r.accepts o = false) ∧ id = o.id ∧ type = o.kind.name ∧ t = s := by
  constructor
  · intro h
    have hnone : ∀ r ∈ chain, r.accepts o = false := by
      intro r hchain
      rw [← Bool.not_eq_true]
      intro hr
      rw [resolveBy_of_accepts source bundle o hchain hr] at h
      exact raises_resolve_of_not_reports source bundle o hsource hr s _ t h id type rfl
    rw [resolveBy_of_not_accepts source bundle o hnone] at h
    cases h
    exact ⟨hnone, rfl, rfl, rfl⟩
  · rintro ⟨hnone, rfl, rfl, rfl⟩
    rw [resolveBy_of_not_accepts source bundle o hnone]
    rfl

/-- **The order of a chain does not matter.**  One resolver at most accepts an object, so every
chain that has all resolvers, in any order and any number of times, chooses that one and resolves
the object as the standard chain does.  The resolver that accepts an object never fails on its own,
but only with what the inventory reports.  If the inventory does not report it, that nobody takes an
object is told exactly if no resolver accepts it, with its id and the name of its kind. -/
theorem resolveBy_dispatch (hchain : standard ⊆ chain) :
    (∀ r r' : Resolver, r.accepts o = true → r'.accepts o = true → r = r') ∧
    (∀ r : Resolver, chooseFor? chain o = some r ↔ r.accepts o = true) ∧
    resolveBy chain source bundle o = resolveBy standard source bundle o ∧
    (∀ r : Resolver, r.accepts o = true →
      Action.Raises (source.Reports bundle) (r.resolve source bundle o)) ∧
    ((∀ id type, ¬ source.Reports bundle (.noResolver id type)) →
      (∀ r : Resolver, r.accepts o = true →
        Action.Raises (fun e => ∀ id type, e ≠ .noResolver id type) (r.resolve source bundle o)) ∧
      ∀ s id type t,
        (resolveBy chain source bundle o).perform s = (.error (.noResolver id type), t) ↔
          (∀ r : Resolver, r.accepts o = false) ∧ id = o.id ∧ type = o.kind.name ∧ t = s) := by
  have hall : ∀ r, r ∈ chain := fun r => hchain (mem_standard r)
  refine ⟨fun r r' => accepts_unique, ?_, ?_, ?_, ?_⟩
  · intro r
    rw [chooseFor?_eq_some_iff]
    exact and_iff_right (hall r)
  · unfold resolveBy
    rw [chooseFor?_congr (fun r => ⟨fun _ => mem_standard r, fun _ => hall r⟩) o]
  · exact fun r hr => raises_resolve source bundle o hr
  · intro hsource
    constructor
    · exact fun r hr => raises_resolve_of_not_reports source bundle o hsource hr
    · intro s id type t
      rw [perform_resolveBy_noResolver_iff source bundle o hsource]
      simp only [hall, forall_true_left]

end Dispatch

end Resolver

/-! ## An object that nobody takes -/

namespace Sample

/-- An inventory that answers every query by no rows. -/
def silent : Inventory.Source Unit := ⟨fun _ _ => pure [], "org"⟩

/-- All resolvers in the opposite order, and the first of them again. -/
def backward : List Resolver := Resolver.standard.reverse ++ [.lambda]

/-- A resource of a type that is in no table. -/
def bucket : FlowObject := ⟨"bucket", .arn "arn:aws:s3:::logs"⟩

end Sample

/-- The resolvers in the opposite order tell that nobody takes the resource. -/
theorem Resolver.resolveBy_dispatch_bucket :
    standard ⊆ Sample.backward ∧
      (∀ id type, ¬ Sample.silent.Reports none (.noResolver id type)) ∧
      (∀ r : Resolver, r.accepts Sample.bucket = false) ∧
      (resolveBy Sample.backward Sample.silent none Sample.bucket).perform () =
        (.error (.noResolver "bucket" "Arn"), ()) := by
  have hchain : standard ⊆ Sample.backward := by decide
  have hsource : ∀ id type, ¬ Sample.silent.Reports none (.noResolver id type) := by
    rintro id type ⟨q, s, t, h⟩
    cases h
  have hnone : ∀ r : Resolver, r.accepts Sample.bucket = false := by
    intro r
    cases r <;> decide +kernel
  obtain ⟨-, -, -, -, herrors⟩ := resolveBy_dispatch Sample.silent none Sample.bucket hchain
  exact ⟨hchain, hsource, hnone, ((herrors hsource).2 () _ _ ()).2 ⟨hnone, rfl, rfl, rfl⟩⟩

end Firewall
