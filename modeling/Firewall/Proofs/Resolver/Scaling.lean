/-
# Autoscaling groups and their machines

An autoscaling group stands for the machines that it lists as in service.  It is looked up by one
query for the group, and then one query for the interfaces of each machine, in the order of the
listing and once for every time that a machine is listed.  What comes of the later queries is what
comes of looking up the machines themselves, one after the other, as objects of their own: the same
addresses in the same order, or the same error, after which nothing more is asked.

* `Resolver.InService`, `Listed` : the machines in service that a group lists;
* `Inventory.Source.Asks` : queries asked one after the other, until one fails;
* `Resolver.NamesMachine`, `namesMachine_instanceObject` : objects that name one machine;
* `Resolver.addresses_resolve_machine`, `addresses_resolve_group` : the addresses of a machine and
  of a group;
* `Resolver.inquiries_group` : what is asked for a group;
* `Resolver.resolveBy_asg` : a group is looked up as its machines are.
-/
import Firewall.Proofs.Resolver.Dispatch
import Firewall.Proofs.Resolver.Noise

namespace Firewall

open Inventory

namespace Resolver

/-! ## Machines in service -/

/-- An entry of a group is a machine with an id, and in service. -/
def InService (entry : Json) (id : String) : Prop :=
  entry.get? "lifecycleState" = some (.string "InService") ∧
    entry.get? "instanceId" = some (.string id)

/-- The entries that a row lists; there are none unless its configuration has an array of them. -/
inductive ListsEntries (row : Json) : List Json → Prop
  | listed {configuration : Json} {entries : List Json}
      (hc : row.get? "configuration" = some configuration)
      (he : configuration.get? "instances" = some (.array entries)) : ListsEntries row entries
  | none (h : ∀ configuration entries, row.get? "configuration" = some configuration →
      configuration.get? "instances" ≠ some (.array entries)) : ListsEntries row []

/-- The ids of the machines in service among entries, in order; other entries are passed over. -/
inductive InServiceOf : List Json → List String → Prop
  | nil : InServiceOf [] []
  | inService {entry : Json} {id : String} {entries : List Json} {ids : List String}
      (h : InService entry id) (hrest : InServiceOf entries ids) :
      InServiceOf (entry :: entries) (id :: ids)
  | passed {entry : Json} {entries : List Json} {ids : List String}
      (h : ∀ id, ¬ InService entry id) (hrest : InServiceOf entries ids) :
      InServiceOf (entry :: entries) ids

/-- The ids of the machines in service that rows list, row by row. -/
def Listed (rows : List Json) (ids : List String) : Prop :=
  ∃ entries, List.Forall₂ ListsEntries rows entries ∧ InServiceOf entries.flatten ids

theorem inService?_eq_some_iff {entry : Json} {id : String} :
    inService? entry = some id ↔ InService entry id := by
  unfold inService? InService
  simp only [Option.ite_none_right_eq_some, Option.bind_eq_some_iff, Json.text?_eq_some_iff,
    exists_eq_right]

theorem listsEntries_configuredItems (row : Json) :
    ListsEntries row (configuredItems row "instances") := by
  unfold configuredItems
  cases hentries : ((row.get? "configuration").bind fun c => c.get? "instances").bind
      Json.items? with
  | none =>
    refine .none fun configuration entries hc he => ?_
    rw [hc, Option.bind_some, he] at hentries
    cases hentries
  | some entries =>
    obtain ⟨value, hvalue, hitems⟩ := Option.bind_eq_some_iff.1 hentries
    obtain ⟨configuration, hc, he⟩ := Option.bind_eq_some_iff.1 hvalue
    rw [Json.items?_eq_some_iff.1 hitems] at he
    exact .listed hc he

theorem inServiceOf_filterMap (entries : List Json) :
    InServiceOf entries (entries.filterMap inService?) := by
  induction entries with
  | nil => exact .nil
  | cons entry entries ih =>
    cases hentry : inService? entry with
    | none =>
      rw [List.filterMap_cons_none hentry]
      refine .passed (fun id h => ?_) ih
      rw [inService?_eq_some_iff.2 h] at hentry
      cases hentry
    | some id =>
      rw [List.filterMap_cons_some hentry]
      exact .inService (inService?_eq_some_iff.1 hentry) ih

/-- **The machines that a group is resolved by** are those in service that it lists. -/
theorem listed_machinesInService (rows : List Json) : Listed rows (machinesInService rows) := by
  refine ⟨rows.map fun row => configuredItems row "instances", ?_, ?_⟩
  · rw [List.forall₂_map_right_iff, List.forall₂_same]
    exact fun row _ => listsEntries_configuredItems row
  · rw [← List.flatMap_def]
    exact inServiceOf_filterMap _

/-! ## Machines as objects -/

/-- The object names a machine by its id. -/
def NamesMachine (o : FlowObject) (id : String) : Prop :=
  ∃ a, arnOf? o = some a ∧ a.isOf "ec2" "instance" = true ∧ a.resourceId = id

/-- The instance with an id, in a region of an account, as an object. -/
def instanceObject (objectId partition region account id : String) : FlowObject :=
  ⟨objectId, .arn (Arn.text ⟨partition, "ec2", region, account, "instance" ++ "/" ++ id⟩)⟩

/-- The name of an instance names the machine with its id, unless a divider in the id cuts it
short. -/
theorem namesMachine_instanceObject {partition region account id : String} (objectId : String)
    (hpartition : Arn.IsPart partition) (hregion : ':' ∉ region.toList)
    (haccount : ':' ∉ account.toList) (hslash : '/' ∉ id.toList) (hcolon : ':' ∉ id.toList) :
    NamesMachine (instanceObject objectId partition region account id) id := by
  have hid : ∀ c ∈ id.toList, Arn.isDivider c = false := by
    intro c hc
    have hc₁ : c ≠ '/' := fun h => hslash (h ▸ hc)
    have hc₂ : c ≠ ':' := fun h => hcolon (h ▸ hc)
    simp [Arn.isDivider, hc₁, hc₂]
  have hservice : Arn.IsPart "ec2" := ⟨by decide, by decide⟩
  have hplain : "instance".toList.any Arn.isDivider = false := by decide
  have htype : ∀ c ∈ "instance".toList, Arn.isDivider c = false := by
    simpa only [List.any_eq_false, Bool.not_eq_true] using hplain
  refine ⟨_, Arn.ofText?_text hpartition hservice hregion haccount ?_, ?_, ?_⟩
  · simp
  · rw [Arn.isOf_iff, Arn.resourceType_of_append rfl htype]
  · exact Arn.resourceId_of_append rfl hid

theorem NamesMachine.accepts {o : FlowObject} {id : String} (h : NamesMachine o id) :
    ec2.accepts o = true := by
  obtain ⟨a, ha, hof, -⟩ := h
  exact (ec2Target?_isSome_iff o).2 ⟨a, ha, _, List.mem_cons_self, hof⟩

/-! ## Addresses -/

section Addresses

variable {σ : Type} (source : Source σ) (bundle : Option Bundle)

/-- A machine is looked up by the interfaces that are related to its id. -/
theorem addresses_resolve_machine {o : FlowObject} {id : String} (h : NamesMachine o id) :
    ResolvedObject.addresses <$> ec2.resolve source bundle o =
      interfaceAddresses source bundle [id] [] := by
  obtain ⟨a, ha, hof, rfl⟩ := h
  have htarget : ec2Target? o = some a := by
    rw [ec2Target?, ha, Option.filter_some, if_pos (by rw [hof]; rfl)]
  rw [resolve, htarget]
  simp only [resolveEc2, map_bind, map_pure, ResolvedObject.addresses_ofAddresses, bind_pure]

/-- **A group is looked up** by the interfaces of the machines in service that it lists, one machine
after the other. -/
theorem addresses_resolve_group {o : FlowObject} {arn : Arn} (h : asgTarget? o = some arn) :
    ResolvedObject.addresses <$> asg.resolve source bundle o = (do
      let rows ← source.ask bundle (groupQuery arn.resourceId)
      List.flatten <$> (machinesInService rows).mapM fun id =>
        interfaceAddresses source bundle [id] []) := by
  rw [resolve, h]
  simp only [resolveAsg, map_bind]
  congr 1
  funext rows
  split
  · next hnone =>
    rw [hnone]
    rfl
  · simp only [map_bind, map_pure, ResolvedObject.addresses_ofAddresses]
    rw [map_eq_pure_bind]

end Addresses

end Resolver

/-! ## Queries one after the other -/

namespace Inventory.Source

variable {σ : Type} (source : Source σ) (bundle : Option Bundle)

/-- Queries that are asked one after the other, with a note of each and the rows of all of them.
The first that fails is the last that is asked, and its error is all that comes of them. -/
inductive Asks : σ → List Query → List Inquiry → Except Error (List (List Json)) → σ → Prop
  | nil (s : σ) : Asks s [] [] (.ok []) s
  | failed {s t : σ} {q : Query} {e : Error} (queries : List Query)
      (h : (source.ask bundle q).perform s = (.error e, t)) :
      Asks s (q :: queries) [⟨source.aggregatorFor bundle, q, .error e⟩] (.error e) t
  | answered {s t u : σ} {q : Query} {rows : List Json} {queries : List Query}
      {notes : List Inquiry} {answers : Except Error (List (List Json))}
      (h : (source.ask bundle q).perform s = (.ok rows, t))
      (hrest : Asks t queries notes answers u) :
      Asks s (q :: queries) (⟨source.aggregatorFor bundle, q, .ok rows⟩ :: notes)
        (answers.map (rows :: ·)) u

variable {source bundle}

/-- Any queries can be asked. -/
theorem exists_asks (queries : List Query) (s : σ) :
    ∃ notes answers t, source.Asks bundle s queries notes answers t := by
  induction queries generalizing s with
  | nil => exact ⟨[], .ok [], s, .nil s⟩
  | cons q queries ih =>
    rcases h : (source.ask bundle q).perform s with ⟨e | rows, t⟩
    · exact ⟨_, _, t, .failed queries h⟩
    · obtain ⟨notes, answers, u, hrest⟩ := ih t
      exact ⟨_, _, u, .answered h hrest⟩

/-- If all queries were answered, then all were asked, each once and in their order. -/
theorem Asks.questions {queries : List Query} {notes : List Inquiry}
    {answers : Except Error (List (List Json))} {s t : σ}
    (h : source.Asks bundle s queries notes answers t) {found : List (List Json)}
    (hfound : answers = .ok found) :
    notes.map Inquiry.question = queries.map fun q => (source.aggregatorFor bundle, q) := by
  induction h generalizing found with
  | nil s => rfl
  | failed queries h => cases hfound
  | @answered s t u q rows queries notes answers h hrest ih =>
    cases answers with
    | error e => cases hfound
    | ok found' =>
      rw [List.map_cons, List.map_cons, ih rfl]
      rfl

/-- Asking for one query after the other comes to what they are answered by. -/
theorem Asks.perform {queries : List Query} {notes : List Inquiry}
    {answers : Except Error (List (List Json))} {s t : σ}
    (h : source.Asks bundle s queries notes answers t) :
    (queries.mapM (source.ask bundle)).perform s = (answers, t) := by
  induction h with
  | nil s => rfl
  | failed queries h =>
    rw [List.mapM_cons]
    exact Action.perform_bind_of_error h _
  | @answered s t u q rows queries notes answers h hrest ih =>
    rw [List.mapM_cons, Action.perform_bind_of_ok h, bind_pure_comp, Action.perform_map, ih]

/-- An inventory that takes notes takes the same notes. -/
theorem Asks.perform_noted {queries : List Query} {notes : List Inquiry}
    {answers : Except Error (List (List Json))} {s t : σ}
    (h : source.Asks bundle s queries notes answers t) (earlier : List Inquiry) :
    (queries.mapM (source.noted.ask bundle)).perform (s, earlier) =
      (answers, t, earlier ++ notes) := by
  induction h generalizing earlier with
  | nil s =>
    rw [List.append_nil]
    rfl
  | failed queries h =>
    rw [List.mapM_cons]
    exact Action.perform_bind_of_error (source.perform_ask_noted_of h earlier) _
  | @answered s t u q rows queries notes answers h hrest ih =>
    rw [List.mapM_cons, Action.perform_bind_of_ok (source.perform_ask_noted_of h earlier),
      bind_pure_comp, Action.perform_map, ih, List.append_assoc]
    rfl

end Inventory.Source

namespace Resolver

/-! ## Groups and their machines -/

section Groups

variable {σ : Type} {chain : List Resolver} (source : Source σ) (bundle : Option Bundle)

/-- The query for the interfaces of one machine. -/
def machineQuery (id : String) : Query := interfaceQuery [id] []

/-- Looking up machines is asking for the interfaces of each. -/
theorem flatten_mapM_interfaceAddresses (ids : List String) :
    (List.flatten <$> ids.mapM fun id => interfaceAddresses source bundle [id] []) =
      List.flatMap privateAddresses <$> (ids.map machineQuery).mapM (source.ask bundle) := by
  have hmap : List.map privateAddresses <$> (ids.map machineQuery).mapM (source.ask bundle) =
      ids.mapM fun id => interfaceAddresses source bundle [id] [] := by
    apply Action.map_mapM_of_forall₂
    rw [List.forall₂_map_left_iff, List.forall₂_same]
    intro id _
    exact map_eq_pure_bind _ _
  rw [← hmap, ← comp_map]
  rfl

/-- Objects that name machines are looked up, one after the other, as these machines are. -/
theorem flatMap_addresses_mapM (hec2 : ec2 ∈ chain) {machines : List FlowObject}
    {ids : List String} (h : List.Forall₂ NamesMachine machines ids) :
    List.flatMap ResolvedObject.addresses <$> machines.mapM (resolveBy chain source bundle) =
      List.flatMap privateAddresses <$> (ids.map machineQuery).mapM (source.ask bundle) := by
  have hmap : List.map ResolvedObject.addresses <$> machines.mapM (resolveBy chain source bundle) =
      ids.mapM fun id => interfaceAddresses source bundle [id] [] := by
    apply Action.map_mapM_of_forall₂
    refine h.imp fun m id hm => ?_
    rw [resolveBy_of_accepts source bundle m hec2 hm.accepts]
    exact addresses_resolve_machine source bundle hm
  rw [← flatten_mapM_interfaceAddresses, ← hmap, ← comp_map]
  rfl

section Lookup

variable {o : FlowObject} {arn : Arn} (ho : asgTarget? o = some arn)
include ho

theorem resolveBy_of_asgTarget (hasg : asg ∈ chain) :
    resolveBy chain source bundle o = asg.resolve source bundle o :=
  resolveBy_of_accepts source bundle o hasg (Option.isSome_iff_exists.2 ⟨arn, ho⟩)

/-- If the query for a group fails, its error is all that comes of looking it up. -/
theorem perform_resolve_group_of_error {s t : σ} {e : Error}
    (h : (source.ask bundle (groupQuery arn.resourceId)).perform s = (.error e, t)) :
    (asg.resolve source bundle o).perform s = (.error e, t) := by
  rw [resolve, ho]
  exact Action.perform_bind_of_error h _

/-- What is found for a group whose listing was answered. -/
theorem perform_resolve_group {s t : σ} {rows : List Json}
    (h : (source.ask bundle (groupQuery arn.resourceId)).perform s = (.ok rows, t)) :
    (ResolvedObject.addresses <$> asg.resolve source bundle o).perform s =
      (List.flatMap privateAddresses <$>
        ((machinesInService rows).map machineQuery).mapM (source.ask bundle)).perform t := by
  rw [addresses_resolve_group source bundle ho, Action.perform_bind_of_ok h,
    flatten_mapM_interfaceAddresses]

/-- Nothing is asked after a query for a group that fails. -/
theorem inquiries_group_of_error (hasg : asg ∈ chain) {s t : σ} {e : Error}
    (h : (source.ask bundle (groupQuery arn.resourceId)).perform s = (.error e, t)) :
    inquiries chain source bundle o s =
      [⟨source.aggregatorFor bundle, groupQuery arn.resourceId, .error e⟩] := by
  have hnoted := source.perform_ask_noted_of h []
  have hgroup := perform_resolve_group_of_error source.noted bundle ho hnoted
  rw [inquiries, resolveBy_of_asgTarget source.noted bundle ho hasg, hgroup]
  rfl

/-- After the query for a group, its machines are asked for. -/
theorem inquiries_group (hasg : asg ∈ chain) {s t u : σ} {rows : List Json}
    {notes : List Inquiry} {answers : Except Error (List (List Json))}
    (h : (source.ask bundle (groupQuery arn.resourceId)).perform s = (.ok rows, t))
    (hasks : source.Asks bundle t ((machinesInService rows).map machineQuery) notes answers u) :
    inquiries chain source bundle o s =
      ⟨source.aggregatorFor bundle, groupQuery arn.resourceId, .ok rows⟩ :: notes := by
  have hnoted := source.perform_ask_noted_of h []
  have hgroup := perform_resolve_group source.noted bundle ho hnoted
  -- the notes are the same for the addresses alone
  rw [Action.perform_map, Action.perform_map, hasks.perform_noted] at hgroup
  rw [inquiries, resolveBy_of_asgTarget source.noted bundle ho hasg]
  exact congrArg (fun w => w.2.2) hgroup

end Lookup

/-- **A group is looked up as its machines are.**  If the query for the group fails, its error is
all that comes of it, and nothing more is asked.  If it is answered, then the interfaces of every
machine in service are asked for, in the order of the listing and as often as the machine is listed;
the first query that fails ends it with its error.  Otherwise the addresses are those of the
machines, one after the other: just what comes of looking up the machines as objects of their
own. -/
theorem resolveBy_asg (hasg : asg ∈ chain) (hec2 : ec2 ∈ chain) {o : FlowObject} {arn : Arn}
    (ho : asgTarget? o = some arn) (s : σ) :
    (∀ e t, (source.ask bundle (groupQuery arn.resourceId)).perform s = (.error e, t) →
      (resolveBy chain source bundle o).perform s = (.error e, t) ∧
      inquiries chain source bundle o s =
        [⟨source.aggregatorFor bundle, groupQuery arn.resourceId, .error e⟩]) ∧
    (∀ rows t, (source.ask bundle (groupQuery arn.resourceId)).perform s = (.ok rows, t) →
      Listed rows (machinesInService rows) ∧
      ∃ notes answers u,
        source.Asks bundle t ((machinesInService rows).map machineQuery) notes answers u ∧
        inquiries chain source bundle o s =
          ⟨source.aggregatorFor bundle, groupQuery arn.resourceId, .ok rows⟩ :: notes ∧
        (∀ found, answers = .ok found → notes.map Inquiry.question =
          (machinesInService rows).map fun id => (source.aggregatorFor bundle, machineQuery id)) ∧
        (ResolvedObject.addresses <$> resolveBy chain source bundle o).perform s =
          (answers.map (List.flatMap privateAddresses), u) ∧
        ∀ machines, List.Forall₂ NamesMachine machines (machinesInService rows) →
          (List.flatMap ResolvedObject.addresses <$>
            machines.mapM (resolveBy chain source bundle)).perform t =
              (ResolvedObject.addresses <$> resolveBy chain source bundle o).perform s) ∧
    (∀ m id, NamesMachine m id →
      ResolvedObject.addresses <$> resolveBy chain source bundle m =
        privateAddresses <$> source.ask bundle (machineQuery id)) ∧
    ∀ objectId partition region account id, Arn.IsPart partition → ':' ∉ region.toList →
      ':' ∉ account.toList → '/' ∉ id.toList → ':' ∉ id.toList →
        NamesMachine (instanceObject objectId partition region account id) id := by
  refine ⟨fun e t herror => ?_, fun rows t hrows => ?_, fun m id hm => ?_,
    fun objectId _ _ _ _ => namesMachine_instanceObject objectId⟩
  · rw [resolveBy_of_asgTarget source bundle ho hasg]
    exact ⟨perform_resolve_group_of_error source bundle ho herror,
      inquiries_group_of_error source bundle ho hasg herror⟩
  · obtain ⟨notes, answers, u, hasks⟩ :=
      Source.exists_asks ((machinesInService rows).map machineQuery) t
    have haddresses := perform_resolve_group source bundle ho hrows
    rw [resolveBy_of_asgTarget source bundle ho hasg]
    refine ⟨listed_machinesInService rows, notes, answers, u, hasks,
      inquiries_group source bundle ho hasg hrows hasks, ?_, ?_, ?_⟩
    · intro found hfound
      rw [hasks.questions hfound, List.map_map]
      rfl
    · rw [haddresses, Action.perform_map, hasks.perform]
    · intro machines hmachines
      rw [flatMap_addresses_mapM source bundle hec2 hmachines, haddresses]
  · rw [resolveBy_of_accepts source bundle m hec2 hm.accepts,
      addresses_resolve_machine source bundle hm]
    exact (map_eq_pure_bind _ _).symm

end Groups

end Resolver

/-! ## A group with three entries -/

namespace Sample

/-- The group, with one machine that it lists twice, and another that is not in service. -/
def shiftItem : Item :=
  (Item.new ResourceType.autoScalingGroup "asg-1"
    ⟨.object [("instances", .array
      [.object [("instanceId", .string "i-1"), ("lifecycleState", .string "InService")],
        .object [("instanceId", .string "i-2"), ("lifecycleState", .string "Pending")],
        .object [("instanceId", .string "i-1"), ("lifecycleState", .string "InService")]])],
      rfl⟩).named "web"

/-- A catalogue with the group and the interface of the machine. -/
def shiftCatalogue : Catalogue :=
  (Catalogue.empty.insert "org" (some shiftItem)).insert "org" (some (machineInterface "10.0.0.5"))

end Sample

/-- The machine is looked up twice, as it would be on its own. -/
theorem Resolver.resolveBy_asg_shift :
    ∃ rows t, ((Catalogue.source "org").ask none (groupQuery "web")).perform
        Sample.shiftCatalogue = (.ok rows, t) ∧
      machinesInService rows = ["i-1", "i-1"] ∧
      ((resolveBy standard (Catalogue.source "org") none Sample.scalingGroup).perform
        Sample.shiftCatalogue).1.toOption.map (·.addresses) = some ["10.0.0.5", "10.0.0.5"] ∧
      (List.flatMap ResolvedObject.addresses <$> [Sample.machine, Sample.machine].mapM
        (resolveBy standard (Catalogue.source "org") none)).perform t =
          (ResolvedObject.addresses <$> resolveBy standard (Catalogue.source "org") none
            Sample.scalingGroup).perform Sample.shiftCatalogue := by
  have hlisted : (((Catalogue.source "org").ask none (groupQuery "web")).perform
      Sample.shiftCatalogue).1.toOption.map machinesInService = some ["i-1", "i-1"] := by
    decide +kernel
  obtain ⟨rows, t, hrows, hids⟩ := Action.exists_perform_of_seen hlisted
  have harn : asgTarget? Sample.scalingGroup = some ⟨"aws", "autoscaling", "eu-west-1",
      "123456789012", "autoScalingGroup:9f1e:autoScalingGroupName/web"⟩ := by
    decide +kernel
  have hmachine : NamesMachine Sample.machine "i-1" := ⟨⟨"aws", "ec2", "eu-west-1",
    "123456789012", "instance/i-1"⟩, by decide +kernel, by decide +kernel, by decide +kernel⟩
  obtain ⟨-, hrun, -⟩ := resolveBy_asg (Catalogue.source "org") none (mem_standard asg)
    (mem_standard ec2) harn Sample.shiftCatalogue
  obtain ⟨-, notes, answers, u, -, -, -, -, hmachines⟩ := hrun rows t hrows
  refine ⟨rows, t, hrows, hids, by decide +kernel, hmachines _ ?_⟩
  rw [hids]
  exact .cons hmachine (.cons hmachine .nil)

end Firewall
