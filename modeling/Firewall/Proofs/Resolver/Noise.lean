/-
# Rows that are passed over

Rows without a configuration may be put into any answer of an inventory, or taken out of it, at any
places: resolving an object comes to the same, and asks the same.

* `Inventory.NoisyAnswer` : answers that differ by such rows;
* `Inventory.Source.Noisy` : inventories that differ by such rows in their answers;
* `Inventory.Catalogue.noisy_source` : catalogues that do, by the items that they hold;
* `Resolver.resolveBy_noisy` : they resolve every object to the same, by the same queries.
-/
import Firewall.Proofs.Resolver.Inquiries

namespace Firewall

variable {σ τ : Type}

namespace Inventory

/-! ## Inventories with noise -/

/-- The same failure, or rows that differ by noise. -/
inductive NoisyAnswer : Except Error (List Json) → Except Error (List Json) → Prop
  | failed (e : Error) : NoisyAnswer (.error e) (.error e)
  | answered {rows rows' : List Json} (h : Noise hasConfiguration rows rows') :
      NoisyAnswer (.ok rows) (.ok rows')

theorem NoisyAnswer.map_solid_eq {answer answer' : Except Error (List Json)}
    (h : NoisyAnswer answer answer') : answer.map solid = answer'.map solid := by
  cases h with
  | failed e => rfl
  | answered h => exact congrArg Except.ok h.filter_eq

/-- In related worlds, two inventories answer every query on behalf of a bundle by the same rows,
but for noise; and their worlds stay related. -/
structure Source.Noisy (R : σ → τ → Prop) (bundle : Option Bundle) (source : Source σ)
    (source' : Source τ) : Prop where
  aggregatorFor : source.aggregatorFor bundle = source'.aggregatorFor bundle
  answer : ∀ q s t, R s t →
    NoisyAnswer ((source.ask bundle q).perform s).1 ((source'.ask bundle q).perform t).1
  world : ∀ q s t, R s t →
    R ((source.ask bundle q).perform s).2 ((source'.ask bundle q).perform t).2

/-- Two inventories that take notes were asked the same, and their worlds are related. -/
def SameQuestions (R : σ → τ → Prop) (w : σ × List Inquiry) (w' : τ × List Inquiry) : Prop :=
  R w.1 w'.1 ∧ w.2.map Inquiry.question = w'.2.map Inquiry.question

/-- Inventories that differ by noise may take notes: they stay alike, and are asked the same. -/
theorem Source.Noisy.noted {R : σ → τ → Prop} {bundle : Option Bundle} {source : Source σ}
    {source' : Source τ} (h : source.Noisy R bundle source') :
    source.noted.AlikeFor (SameQuestions R) bundle source'.noted := by
  rintro q w w' ⟨hw, hnotes⟩
  rw [perform_ask_noted, perform_ask_noted]
  refine ⟨(h.answer q _ _ hw).map_solid_eq, h.world q _ _ hw, ?_⟩
  rw [List.map_append, List.map_append, hnotes, h.aggregatorFor]
  rfl

/-! ## Catalogues with noise -/

namespace Catalogue

/-- Whether an entry of a catalogue is an item that has an object as its configuration. -/
def isSolid : Option Item → Bool
  | some item => hasConfiguration item.row
  | none => false

/-- Two catalogues hold the same for an aggregator, but for null rows and items without an object as
their configuration. -/
structure NoisyOn (aggregator : String) (c c' : Catalogue) : Prop where
  items : Noise isSolid (c.itemsOf aggregator) (c'.itemsOf aggregator)
  outage : c.outage = c'.outage

theorem NoisyOn.rows {aggregator : String} {c c' : Catalogue} (h : NoisyOn aggregator c c')
    (q : Query) : Noise hasConfiguration (c.rows aggregator q) (c'.rows aggregator q) := by
  refine h.items.filterMap fun item row hitem hrow => ?_
  cases item with
  | none =>
    cases hrow
    rfl
  | some item =>
    rw [rowOf, Option.ite_none_right_eq_some, Option.some.injEq] at hrow
    rw [← hrow.2]
    exact hitem

theorem noisy_source {bundle : Option Bundle} {aggregator d d' : String}
    (hd : (source d).aggregatorFor bundle = aggregator)
    (hd' : (source d').aggregatorFor bundle = aggregator) :
    (source d).Noisy (NoisyOn aggregator) bundle (source d') where
  aggregatorFor := hd.trans hd'.symm
  answer := by
    intro q c c' h
    unfold Source.ask
    rw [hd, hd']
    unfold source select
    rw [Action.perform_ofFun, Action.perform_ofFun, ← h.outage]
    cases c.outage with
    | some reason => exact .failed _
    | none => exact .answered (h.rows q)
  world := fun q c c' h => ⟨h.items, h.outage⟩

end Catalogue

end Inventory

/-! ## Resolving in spite of noise -/

/-- **Rows without a configuration make no difference.**  If two inventories differ in their answers
by nothing but such rows, then every object is resolved by both to the same addresses and reasons,
or fails with the same error; and both are asked the same queries, in the same order. -/
theorem Resolver.resolveBy_noisy {R : σ → τ → Prop} {bundle : Option Bundle}
    {source : Inventory.Source σ} {source' : Inventory.Source τ}
    (h : source.Noisy R bundle source') (chain : List Resolver) (o : FlowObject) {s : σ} {t : τ}
    (hst : R s t) :
    ((resolveBy chain source bundle o).perform s).1 =
        ((resolveBy chain source' bundle o).perform t).1 ∧
      (inquiries chain source bundle o s).map Inventory.Inquiry.question =
        (inquiries chain source' bundle o t).map Inventory.Inquiry.question := by
  obtain ⟨hresult, -, hquestions⟩ :=
    alike_resolveBy h.noted chain o (s, []) (t, []) ⟨hst, rfl⟩
  rw [perform_noted, perform_noted] at hresult
  exact ⟨hresult, hquestions⟩

/-! ## An autoscaling group with noise -/

namespace Sample

/-- An autoscaling group. -/
def scalingGroup : FlowObject :=
  ⟨"o2", .arn ("arn:aws:autoscaling:eu-west-1:123456789012:" ++
    "autoScalingGroup:9f1e:autoScalingGroupName/web")⟩

/-- The group in the inventory; the machine is in service. -/
def groupItem : Inventory.Item :=
  (Inventory.Item.new Inventory.ResourceType.autoScalingGroup "asg-1"
    ⟨.object [("instances", .array [.object
      [("instanceId", .string "i-1"), ("lifecycleState", .string "InService")]])], rfl⟩).named "web"

/-- A network interface of the machine that has no configuration. -/
def bareInterface : Inventory.Item :=
  (Inventory.Item.new Inventory.ResourceType.networkInterface "eni-2" .null).relatedTo "i-1"

/-- A catalogue with the group and the interface of its machine. -/
def groupCatalogue : Inventory.Catalogue :=
  (Inventory.Catalogue.empty.insert "org" (some groupItem)).insert "org"
    (some (machineInterface "10.0.0.5"))

/-- The same with two null rows, and with an interface without a configuration. -/
def noisyCatalogue : Inventory.Catalogue :=
  [none, some groupItem, some bareInterface, some (machineInterface "10.0.0.5"), none].foldl
    (fun c item => c.insert "org" item) Inventory.Catalogue.empty

end Sample

/-- The noise is in both answers, to the query for the group and to the one for its machine. -/
theorem Resolver.resolveBy_noisy_group :
    ((resolveBy standard (Inventory.Catalogue.source "org") none Sample.scalingGroup).perform
        Sample.groupCatalogue).1 =
      ((resolveBy standard (Inventory.Catalogue.source "org") none Sample.scalingGroup).perform
        Sample.noisyCatalogue).1 ∧
    ((resolveBy standard (Inventory.Catalogue.source "org") none Sample.scalingGroup).perform
        Sample.noisyCatalogue).1.toOption.map (·.addresses) = some ["10.0.0.5"] ∧
    (inquiries standard (Inventory.Catalogue.source "org") none Sample.scalingGroup
        Sample.groupCatalogue).map Inventory.Inquiry.question =
      (inquiries standard (Inventory.Catalogue.source "org") none Sample.scalingGroup
        Sample.noisyCatalogue).map Inventory.Inquiry.question ∧
    (inquiries standard (Inventory.Catalogue.source "org") none Sample.scalingGroup
      Sample.noisyCatalogue).map Inventory.Inquiry.question =
        [("org", groupQuery "web"), ("org", interfaceQuery ["i-1"] [])] := by
  have hnoise : Inventory.Catalogue.NoisyOn "org" Sample.groupCatalogue Sample.noisyCatalogue :=
    ⟨.insert rfl (.keep _ (.insert rfl (.keep _ (.insert rfl .nil)))), rfl⟩
  have hsource : (Inventory.Catalogue.source "org").Noisy (Inventory.Catalogue.NoisyOn "org") none
      (Inventory.Catalogue.source "org") := Inventory.Catalogue.noisy_source rfl rfl
  obtain ⟨hresult, hquestions⟩ := resolveBy_noisy hsource standard Sample.scalingGroup hnoise
  exact ⟨hresult, by decide +kernel, hquestions, by decide +kernel⟩

end Firewall
