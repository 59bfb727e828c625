/-
# Pooled attachments

The security groups and the subnets of functions are pooled: each id that a function lists is taken
once, where it occurs first.  The interfaces are found by membership in the pool, so their order is
that of the catalogue, and all that matters of the functions is which ids they list together.  They
may be permuted and repeated, and ids may move from one to another.

* `Resolver.ListsIds` : the entries that a row lists under a field;
* `Resolver.Pooled`, `Resolver.pooled_attachment` : the ids that are pooled from rows;
* `Inventory.Catalogue.Rearranged` : functions that are permuted, repeated, or exchange ids;
* `Inventory.Catalogue.SamePool`, `Inventory.Catalogue.Rearranged.samePool` : what this preserves;
* `Resolver.perform_resolveFunctions_congr` : what resolving functions depends on;
* `Resolver.resolveBy_rearranged` : functions may be rearranged.
-/
import Mathlib.Logic.Relation
import Firewall.Proofs.FirstSeen
import Firewall.Proofs.Resolver.Functions

namespace Firewall

open Inventory

namespace Resolver

/-! ## Ids in rows -/

/-- The entries that a row lists under a field of its network configuration; there are none unless
the field is an array. -/
inductive ListsIds (field : String) (row : Json) : List Json → Prop
  | listed {configuration network : Json} {entries : List Json}
      (hc : row.get? "configuration" = some configuration)
      (hn : configuration.get? "vpcConfig" = some network)
      (he : network.get? field = some (.array entries)) : ListsIds field row entries
  | none (h : ∀ configuration network entries, row.get? "configuration" = some configuration →
      configuration.get? "vpcConfig" = some network →
      network.get? field ≠ some (.array entries)) : ListsIds field row []

/-- The ids of a row are the texts among its entries. -/
theorem exists_listsIds (field : String) (row : Json) :
    ∃ entries, ListsIds field row entries ∧
      attachmentIds field row = entries.filterMap Json.text? := by
  refine ⟨_, ?_, rfl⟩
  cases hentries : (((row.get? "configuration").bind fun c => c.get? "vpcConfig").bind
      fun v => v.get? field).bind Json.items? with
  | none =>
    refine .none fun configuration network entries hc hn he => ?_
    rw [hc, Option.bind_some, hn, Option.bind_some, he] at hentries
    cases hentries
  | some entries =>
    obtain ⟨value, hvalue, hitems⟩ := Option.bind_eq_some_iff.1 hentries
    obtain ⟨network, hnetwork, he⟩ := Option.bind_eq_some_iff.1 hvalue
    obtain ⟨configuration, hc, hn⟩ := Option.bind_eq_some_iff.1 hnetwork
    rw [Json.items?_eq_some_iff.1 hitems] at he
    exact .listed hc hn he

/-- The texts that rows list under a field, each once, in the order in which they are listed
first. -/
def Pooled (field : String) (rows : List Json) (ids : List String) : Prop :=
  ∃ entries, List.Forall₂ (ListsIds field) rows entries ∧
    FirstOccurrences (entries.flatten.filterMap Json.text?) ids

theorem pooled_firstSeen (field : String) (rows : List Json) :
    Pooled field rows (firstSeen (rows.flatMap (attachmentIds field))) := by
  have hlisted : ∃ entries, List.Forall₂ (ListsIds field) rows entries ∧
      rows.flatMap (attachmentIds field) = entries.flatten.filterMap Json.text? := by
    induction rows with
    | nil => exact ⟨[], .nil, rfl⟩
    | cons row rows ih =>
      obtain ⟨entries, hrow, hids⟩ := exists_listsIds field row
      obtain ⟨rest, hrows, hrest⟩ := ih
      refine ⟨entries :: rest, .cons hrow hrows, ?_⟩
      rw [List.flatMap_cons, List.flatten_cons, List.filterMap_append, hids, hrest]
  obtain ⟨entries, hrows, hids⟩ := hlisted
  exact ⟨entries, hrows, firstOccurrences_iff.2 (congrArg firstSeen hids)⟩

/-- **The attachment of functions is pooled from their rows.** -/
theorem pooled_attachment (rows : List Json) :
    Pooled "securityGroupIds" rows (VpcAttachment.ofRows rows).securityGroups ∧
      Pooled "subnetIds" rows (VpcAttachment.ofRows rows).subnets :=
  ⟨pooled_firstSeen _ rows, pooled_firstSeen _ rows⟩

end Resolver

/-! ## Rearranging functions -/

namespace Inventory

namespace Catalogue

/-- Whether an entry is for a function. -/
def isFunction (e : String × Option Item) : Bool :=
  e.2.any fun item => item.resourceType = ResourceType.function

/-- Entries of which the functions are rearranged, and nothing else. -/
inductive Rearranged (aggregator : String) (tag : Tag) :
    List (String × Option Item) → List (String × Option Item) → Prop
  /-- The functions are permuted, and may go anywhere between the other entries. -/
  | permuted {es es' : List (String × Option Item)}
      (hfunctions : (es'.filter isFunction).Perm (es.filter isFunction))
      (hothers : es'.filter (!isFunction ·) = es.filter (!isFunction ·)) :
      Rearranged aggregator tag es es'
  /-- A function is repeated somewhere. -/
  | repeated {es es' : List (String × Option Item)} {e : String × Option Item}
      (he : isFunction e = true) (hmem : e ∈ es ++ es') :
      Rearranged aggregator tag (es ++ es') (es ++ e :: es')
  /-- Two functions with the tag exchange ids: together they list the same as before. -/
  | exchanged {es es' es'' : List (String × Option Item)} {f g f' g' : Item}
      (hf : f.IsFunction tag) (hg : g.IsFunction tag) (hf' : f'.IsFunction tag)
      (hg' : g'.IsFunction tag)
      (hids : ∀ field ∈ ["securityGroupIds", "subnetIds"], ∀ id,
        f'.Lists field id ∨ g'.Lists field id ↔ f.Lists field id ∨ g.Lists field id) :
      Rearranged aggregator tag
        (es ++ (aggregator, some f) :: es' ++ (aggregator, some g) :: es'')
        (es ++ (aggregator, some f') :: es' ++ (aggregator, some g') :: es'')

/-- Some function with a tag lists an id under a field. -/
def ListedAmong (aggregator : String) (tag : Tag) (field id : String)
    (es : List (String × Option Item)) : Prop :=
  ∃ f, (aggregator, some f) ∈ es ∧ f.IsFunction tag ∧ f.Lists field id

/-- Entries that are the same apart from the functions, of which those with a tag list the same ids
together. -/
structure SamePool (aggregator : String) (tag : Tag) (es es' : List (String × Option Item)) :
    Prop where
  others : es'.filter (!isFunction ·) = es.filter (!isFunction ·)
  listed : ∀ field ∈ ["securityGroupIds", "subnetIds"], ∀ id,
    ListedAmong aggregator tag field id es' ↔ ListedAmong aggregator tag field id es

variable {aggregator : String} {tag : Tag} {field id : String} {es es' : List (String × Option Item)}

theorem isFunction_mk {f : Item} (hf : f.IsFunction tag) :
    isFunction (aggregator, some f) = true :=
  decide_eq_true hf.resourceType

theorem filter_others_append_cons {e : String × Option Item} (he : isFunction e = true) :
    (es ++ e :: es').filter (!isFunction ·) = (es ++ es').filter (!isFunction ·) := by
  rw [List.filter_append, List.filter_append, List.filter_cons_of_neg (by simp [he])]

theorem listedAmong_append :
    ListedAmong aggregator tag field id (es ++ es') ↔
      ListedAmong aggregator tag field id es ∨ ListedAmong aggregator tag field id es' := by
  simp only [ListedAmong, List.mem_append, or_and_right, exists_or]

theorem listedAmong_cons {f : Item} (hf : f.IsFunction tag) :
    ListedAmong aggregator tag field id ((aggregator, some f) :: es) ↔
      f.Lists field id ∨ ListedAmong aggregator tag field id es := by
  simp only [ListedAmong, List.mem_cons, Prod.mk.injEq, true_and, Option.some.injEq, or_and_right,
    exists_or, exists_eq_left, hf]

/-- Two functions list ids together, wherever they are. -/
theorem listedAmong_pair {f g : Item} (hf : f.IsFunction tag) (hg : g.IsFunction tag)
    {es'' : List (String × Option Item)} :
    ListedAmong aggregator tag field id
        (es ++ (aggregator, some f) :: es' ++ (aggregator, some g) :: es'') ↔
      (f.Lists field id ∨ g.Lists field id) ∨
        ListedAmong aggregator tag field id (es ++ es' ++ es'') := by
  simp only [listedAmong_append, listedAmong_cons hf, listedAmong_cons hg]
  simp only [or_assoc, or_left_comm]

/-- The ids that are listed among all entries of a catalogue. -/
theorem listed_iff {c : Catalogue} :
    c.Listed aggregator tag field id ↔ ListedAmong aggregator tag field id c.entries := by
  have hholds : ∀ f, c.Holds aggregator f ↔ (aggregator, some f) ∈ c.entries := by
    intro f
    simp [Holds, itemsOf, List.mem_filterMap, Prod.exists]
  simp only [Listed, ListedAmong, hholds]

theorem samePool_equivalence (aggregator : String) (tag : Tag) :
    Equivalence (SamePool aggregator tag) where
  refl _ := ⟨rfl, fun _ _ _ => Iff.rfl⟩
  symm h := ⟨h.others.symm, fun field hfield id => (h.listed field hfield id).symm⟩
  trans h h' := ⟨h'.others.trans h.others, fun field hfield id =>
    (h'.listed field hfield id).trans (h.listed field hfield id)⟩

/-- One step keeps the pool. -/
theorem Rearranged.samePool (h : Rearranged aggregator tag es es') :
    SamePool aggregator tag es es' := by
  cases h with
  | permuted hfunctions hothers =>
    refine ⟨hothers, fun field _ id => exists_congr fun f => and_congr_left fun ⟨hf, _⟩ => ?_⟩
    have hmem := hfunctions.mem_iff (a := (aggregator, some f))
    rwa [List.mem_filter, List.mem_filter, and_iff_left (isFunction_mk hf),
      and_iff_left (isFunction_mk hf)] at hmem
  | repeated he hmem =>
    refine ⟨filter_others_append_cons he, fun field _ id => exists_congr fun f =>
      and_congr_left fun _ => ?_⟩
    rw [List.mem_append, List.mem_cons, or_left_comm, ← List.mem_append, or_iff_right_of_imp]
    rintro rfl
    exact hmem
  | exchanged hf hg hf' hg' hids =>
    constructor
    · rw [filter_others_append_cons (isFunction_mk hg'),
        filter_others_append_cons (isFunction_mk hg)]
      simp only [List.append_assoc, List.cons_append]
      rw [filter_others_append_cons (isFunction_mk hf'),
        filter_others_append_cons (isFunction_mk hf)]
    · intro field hfield id
      rw [listedAmong_pair hf' hg', listedAmong_pair hf hg, hids field hfield id]

/-- **However often functions are rearranged, the pool stays the same.** -/
theorem samePool_of_eqvGen (h : Relation.EqvGen (Rearranged aggregator tag) es es') :
    SamePool aggregator tag es es' :=
  (samePool_equivalence aggregator tag).eqvGen_iff.1 (h.mono fun _ _ => Rearranged.samePool)

/-! ## What is asked of a pool -/

variable {c c' : Catalogue} {q q' : Query}

theorem rows_congr (h : ∀ item : Item, item.answers q' = item.answers q) :
    c.rows aggregator q' = c.rows aggregator q := by
  have hrow : rowOf q' = rowOf q := by
    funext entry
    cases entry with
    | none => rfl
    | some item => rw [rowOf, rowOf, h]
  rw [rows, rows, hrow]

/-- A function does not answer a query for network interfaces. -/
theorem rowOf_of_isFunction (hq : q.resourceTypes = [ResourceType.networkInterface])
    {e : String × Option Item} (he : isFunction e = true) : rowOf q e.2 = none := by
  obtain ⟨a, _ | item⟩ := e
  · cases he
  · have htype : item.resourceType = ResourceType.function := of_decide_eq_true he
    refine if_neg fun hanswers => ?_
    rw [((Item.answers_iff_of_type hq).1 hanswers).1] at htype
    exact absurd htype (by decide)

/-- So the answer depends on the other entries only. -/
theorem rows_of_others (hq : q.resourceTypes = [ResourceType.networkInterface])
    (h : c'.entries.filter (!isFunction ·) = c.entries.filter (!isFunction ·)) :
    c'.rows aggregator q = c.rows aggregator q := by
  have hrows : ∀ c : Catalogue, c.rows aggregator q =
      (c.entries.filter (!isFunction ·)).filterMap fun e =>
        if e.1 = aggregator then rowOf q e.2 else none := by
    intro c
    rw [rows, itemsOf, List.filterMap_filterMap, List.filterMap_filter]
    congr 1
    funext e
    cases he : isFunction e with
    | false =>
      rw [Bool.not_false, if_pos rfl]
      split <;> rfl
    | true =>
      rw [Bool.not_true, if_neg Bool.false_ne_true]
      split
      · exact rowOf_of_isFunction hq he
      · rfl
  rw [hrows, hrows, h]

end Catalogue

end Inventory

namespace Resolver

/-- Attachments with the same security groups and the same subnets, in any order. -/
structure VpcAttachment.Alike (a a' : VpcAttachment) : Prop where
  securityGroups : ∀ id, id ∈ a'.securityGroups ↔ id ∈ a.securityGroups
  subnets : ∀ id, id ∈ a'.subnets ↔ id ∈ a.subnets

theorem VpcAttachment.Alike.isEmpty_eq {a a' : VpcAttachment} (h : a.Alike a') :
    a'.isEmpty = a.isEmpty := by
  have hnil : ∀ {ids ids' : List String}, (∀ id, id ∈ ids' ↔ id ∈ ids) →
      ids'.isEmpty = ids.isEmpty := by
    intro ids ids' hids
    rw [Bool.eq_iff_iff, List.isEmpty_iff, List.isEmpty_iff, List.eq_nil_iff_forall_not_mem,
      List.eq_nil_iff_forall_not_mem]
    exact forall_congr' fun id => not_congr (hids id)
  rw [isEmpty, isEmpty, hnil h.securityGroups, hnil h.subnets]

theorem VpcAttachment.Alike.answers_eq {a a' : VpcAttachment} (h : a.Alike a') (item : Item) :
    item.answers (interfaceQuery a'.securityGroups
        [.subnetIn a'.subnets, .interfaceType "lambda"]) =
      item.answers (interfaceQuery a.securityGroups
        [.subnetIn a.subnets, .interfaceType "lambda"]) := by
  rw [Bool.eq_iff_iff, Item.answers_iff_of_type rfl, Item.answers_iff_of_type rfl]
  simp only [interfaceQuery, List.forall_mem_cons, Item.satisfies_related_iff,
    Item.satisfies_subnetIn_iff, h.securityGroups, h.subnets]

section Pools

variable {d aggregator : String} {bundle : Option Bundle} {c c' : Catalogue} {tag : Tag}

theorem mem_firstSeen_pool (h : Catalogue.SamePool aggregator tag c.entries c'.entries)
    {field : String} (hfield : field ∈ ["securityGroupIds", "subnetIds"]) (id : String) :
    id ∈ firstSeen ((c'.rows aggregator (functionQuery tag)).flatMap (attachmentIds field)) ↔
      id ∈ firstSeen ((c.rows aggregator (functionQuery tag)).flatMap (attachmentIds field)) := by
  rw [Catalogue.mem_firstSeen_attachmentIds_iff, Catalogue.mem_firstSeen_attachmentIds_iff,
    Catalogue.listed_iff, Catalogue.listed_iff]
  exact h.listed field hfield id

/-- Functions of one pool are attached alike. -/
theorem alike_ofRows (h : Catalogue.SamePool aggregator tag c.entries c'.entries) :
    (VpcAttachment.ofRows (c.rows aggregator (functionQuery tag))).Alike
      (VpcAttachment.ofRows (c'.rows aggregator (functionQuery tag))) :=
  ⟨mem_firstSeen_pool h (.head _), mem_firstSeen_pool h (.tail _ (.head _))⟩

/-- The interfaces of the pool are found in the same order. -/
theorem privateAddresses_pool (h : Catalogue.SamePool aggregator tag c.entries c'.entries)
    {a a' : VpcAttachment} (halike : a.Alike a') :
    privateAddresses (c'.rows aggregator (interfaceQuery a'.securityGroups
        [.subnetIn a'.subnets, .interfaceType "lambda"])) =
      privateAddresses (c.rows aggregator (interfaceQuery a.securityGroups
        [.subnetIn a.subnets, .interfaceType "lambda"])) := by
  rw [Catalogue.rows_congr halike.answers_eq, Catalogue.rows_of_others rfl h.others]

/-- What functions are resolved to by a catalogue in order. -/
theorem perform_resolveFunctions_of_inOrder
    (hd : (Catalogue.source d).aggregatorFor bundle = aggregator) (hc : c.outage = none)
    (o : FlowObject) {a : VpcAttachment}
    (ha : VpcAttachment.ofRows (c.rows aggregator (functionQuery tag)) = a) :
    ((resolveFunctions (Catalogue.source d) bundle o tag).perform c).1 = .ok
      (if a.isEmpty then
        .missed o ("No VPC attached function found for tag " ++ tag.key ++ "=" ++ tag.value)
      else .ofAddresses o (privateAddresses (c.rows aggregator (interfaceQuery a.securityGroups
          [.subnetIn a.subnets, .interfaceType "lambda"])))
        ("No network interfaces found for functions tagged " ++ tag.key ++ "=" ++ tag.value)) := by
  rw [resolveFunctions, Action.perform_bind_of_ok (Catalogue.perform_ask_of_inOrder hc), hd]
  dsimp only
  rw [ha]
  split
  · rfl
  · -- the second query is answered by the catalogue that remembers the first
    rw [interfaceAddresses, Action.perform_bind_of_ok (Action.perform_bind_of_ok
      (Catalogue.perform_ask_of_inOrder (by exact hc)) _), hd]
    rfl

/-- **All that matters of functions is their pool.** -/
theorem perform_resolveFunctions_congr
    (hd : (Catalogue.source d).aggregatorFor bundle = aggregator) (houtage : c'.outage = c.outage)
    (h : Catalogue.SamePool aggregator tag c.entries c'.entries) (o : FlowObject) :
    ((resolveFunctions (Catalogue.source d) bundle o tag).perform c').1 =
      ((resolveFunctions (Catalogue.source d) bundle o tag).perform c).1 := by
  cases hc : c.outage with
  | some reason =>
    rw [resolveFunctions, Action.perform_bind_of_error (Catalogue.perform_ask_of_outage hc),
      Action.perform_bind_of_error (Catalogue.perform_ask_of_outage (houtage.trans hc))]
  | none =>
    have halike := alike_ofRows h
    rw [perform_resolveFunctions_of_inOrder hd (houtage.trans hc) o rfl,
      perform_resolveFunctions_of_inOrder hd hc o rfl, halike.isEmpty_eq,
      privateAddresses_pool h halike]

/-- **Functions may be rearranged.**  The security groups and the subnets of functions are pooled from
their rows: those that are listed, each once, in the order in which they are listed first.  So
however often functions are permuted, repeated, or exchange ids with others that have the tag, a
function object is resolved to the same addresses, or is the same miss or error. -/
theorem resolveBy_rearranged {chain : List Resolver} (hlambda : lambda ∈ chain)
    (hd : (Catalogue.source d).aggregatorFor bundle = aggregator) {o : FlowObject}
    {raw : Json.Ordered} (ho : o.value = .lambda raw) :
    (∀ rows, Pooled "securityGroupIds" rows (VpcAttachment.ofRows rows).securityGroups ∧
      Pooled "subnetIds" rows (VpcAttachment.ofRows rows).subnets) ∧
    ∀ c c' : Catalogue, c'.outage = c.outage →
      (∀ tag, Json.Reading.ofJson? Tag.reading raw.doc = some tag →
        Relation.EqvGen (Catalogue.Rearranged aggregator tag) c.entries c'.entries) →
      ((resolveBy chain (Catalogue.source d) bundle o).perform c').1 =
        ((resolveBy chain (Catalogue.source d) bundle o).perform c).1 := by
  refine ⟨pooled_attachment, fun c c' houtage hrearranged => ?_⟩
  rw [resolveBy_of_lambda _ bundle hlambda ho, resolveLambda]
  cases htag : Json.Reading.ofJson? Tag.reading raw.doc with
  | none => rfl
  | some tag =>
    exact perform_resolveFunctions_congr hd houtage
      (Catalogue.samePool_of_eqvGen (hrearranged tag htag)) o

end Pools

end Resolver

/-! ## Two functions, rearranged -/

namespace Sample

/-- The two functions exchange subnets, follow the interface in the other order, and one of them is
there twice. -/
def uncrossed : Catalogue :=
  (((Catalogue.empty.insert "org" (some (functionInterface "sg-a" "subnet-b"))).insert "org"
    (some (billingFunction "sg-b" "subnet-a"))).insert "org"
      (some (billingFunction "sg-a" "subnet-b"))).insert "org"
        (some (billingFunction "sg-b" "subnet-a"))

theorem isFunction_billingFunction (group subnet : String) :
    (billingFunction group subnet).IsFunction ⟨"app", "billing"⟩ :=
  ⟨rfl, List.mem_singleton_self _⟩

/-- Two functions exchange their subnets. -/
theorem exchanged_billingFunction (group group' subnet subnet' : String)
    (es : List (String × Option Item)) :
    Catalogue.Rearranged "org" ⟨"app", "billing"⟩
      (("org", some (billingFunction group subnet)) ::
        ("org", some (billingFunction group' subnet')) :: es)
      (("org", some (billingFunction group subnet')) ::
        ("org", some (billingFunction group' subnet)) :: es) := by
  have hfunction := isFunction_billingFunction
  refine @Catalogue.Rearranged.exchanged _ _ [] [] es _ _ _ _ (hfunction _ _) (hfunction _ _)
    (hfunction _ _) (hfunction _ _) ?_
  simp only [← Item.mem_attachmentIds_iff, List.forall_mem_cons]
  exact ⟨fun id => Iff.rfl, fun id => or_comm, nofun⟩

theorem eqvGen_uncrossed :
    Relation.EqvGen (Catalogue.Rearranged "org" ⟨"app", "billing"⟩) crossed.entries
      uncrossed.entries := by
  have hfunction : ∀ group subnet,
      Catalogue.isFunction ("org", some (billingFunction group subnet)) = true :=
    fun group subnet => Catalogue.isFunction_mk (isFunction_billingFunction group subnet)
  have hinterface :
      Catalogue.isFunction ("org", some (functionInterface "sg-a" "subnet-b")) = false := by
    decide
  have hexchanged := exchanged_billingFunction "sg-a" "sg-b" "subnet-a" "subnet-b"
    [("org", some (functionInterface "sg-a" "subnet-b"))]
  have hpermuted : Catalogue.Rearranged "org" ⟨"app", "billing"⟩
      [("org", some (billingFunction "sg-a" "subnet-b")),
        ("org", some (billingFunction "sg-b" "subnet-a")),
        ("org", some (functionInterface "sg-a" "subnet-b"))]
      [("org", some (functionInterface "sg-a" "subnet-b")),
        ("org", some (billingFunction "sg-b" "subnet-a")),
        ("org", some (billingFunction "sg-a" "subnet-b"))] := by
    constructor <;> simp only [List.filter_cons, hfunction, hinterface]
    · exact .swap _ _ _
    · rfl
  have hrepeated := @Catalogue.Rearranged.repeated "org" ⟨"app", "billing"⟩
    [("org", some (functionInterface "sg-a" "subnet-b")),
      ("org", some (billingFunction "sg-b" "subnet-a")),
      ("org", some (billingFunction "sg-a" "subnet-b"))] [] _ (hfunction "sg-b" "subnet-a")
    (.tail _ (.head _))
  exact .trans _ _ _ (.rel _ _ hexchanged) (.trans _ _ _ (.rel _ _ hpermuted)
    (.rel _ _ hrepeated))

end Sample

namespace Resolver

/-- The rearranged functions are resolved to the same address. -/
theorem resolveBy_rearranged_uncrossed :
    ((resolveBy standard (Catalogue.source "org") none Sample.billing).perform
        Sample.uncrossed).1 =
      ((resolveBy standard (Catalogue.source "org") none Sample.billing).perform
        Sample.crossed).1 ∧
    ((resolveBy standard (Catalogue.source "org") none Sample.billing).perform
      Sample.crossed).1.map ResolvedObject.addresses = .ok ["10.0.9.9"] := by
  refine ⟨(resolveBy_rearranged (by decide) rfl rfl).2 _ _ rfl ?_, by decide +kernel⟩
  intro tag htag
  cases Option.some.inj (htag.symm.trans (show _ = some (Tag.mk "app" "billing") from rfl))
  exact Sample.eqvGen_uncrossed

end Resolver

end Firewall
