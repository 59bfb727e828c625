/-
# Edits during an evaluation

An evaluation reads the rules of each bundle of a group in turn, resolves them, and in the end stores
all of them again, each as a whole.  In the meantime others may edit the rules that were read.  The
evaluation does not see it: it comes to the same, and if it gets as far as storing rules, the store is
in the end what it would have been without any edit.

* `Moment`, `Edits` : where rules are edited during an evaluation, and how;
* `Deployment.contested`, `evaluateContested` : evaluations during which rules are edited;
* `Rule.OfRead` : a rule that was read, and is in no bundle that is still to be read;
* `World.Edited`, `Deployment.resolveContested_alike` : a world and the same world with edits;
* `Deployment.evaluateGroup_contested` : all edits are lost, or nothing is stored;
* `Deployment.evaluateGroup_contested_lost` : an action that was edited and is back.
-/
import Firewall.Proofs.Evaluation.Refusal

namespace Firewall

open Evaluation

/-! ## Edits -/

/-- A moment between reading the rules of a bundle and storing them: just before objects are read,
the inventory is asked, or the rules are stored. -/
inductive Moment
  | objects (ids : List String)
  | query (aggregator : String) (q : Inventory.Query)
  | put (rules : List Rule)

/-- The rules that others insert at a moment, one after the other.  They may depend on what lies
outside. -/
abbrev Edits (ω : Type) := Moment → ω → List Rule

section Worlds

variable {ω : Type}

/-- A world in which others have inserted rules.  The journal tells nothing of it. -/
def World.edited (w : World ω) (made : List Rule) : World ω :=
  { w with ledger := { w.ledger with store := w.store.putRules made } }

theorem World.edited_edited (w : World ω) (made made' : List Rule) :
    (w.edited made).edited made' = w.edited (made ++ made') := by
  unfold edited store
  rw [Store.Snapshot.putRules_append]

/-- The edits of a moment. -/
def Edits.now (edits : Edits ω) (m : Moment) : Action (World ω) Unit :=
  Action.ofFun fun w => (.ok (), w.edited (edits m w.outside))

/-- The evaluator of a deployment, with edits at every moment between reading rules and storing
them. -/
def Deployment.contested (d : Deployment ω) (edits : Edits ω) : Evaluator (World ω) where
  repository :=
    { d.repository with
      objectsWith := fun ids => do
        edits.now (.objects ids)
        d.repository.objectsWith ids
      putRules := fun rules => do
        edits.now (.put rules)
        d.repository.putRules rules }
  compiler :=
    { d.compiler with
      source :=
        { d.compiler.source with
          select := fun aggregator q => do
            edits.now (.query aggregator q)
            d.compiler.source.select aggregator q } }
  publisher := d.publisher

namespace Deployment

/-- The resolutions of bundles with edits.  What is edited may depend on the bundles whose rules are
still to be read. -/
def resolveContested (d : Deployment ω) (edits : List Bundle → Edits ω) :
    UInt64 → List Bundle → Action (World ω) (List (String × Resolution))
  | _, [] => pure []
  | offset, b :: bs => do
    let r ← (d.contested (edits bs)).resolveBundle offset b
    let rest ← d.resolveContested edits r.lastSid bs
    pure ((b.id, r) :: rest)

/-- The evaluation of a group with edits, before anything is written. -/
def compileContested (d : Deployment ω) (edits : List Bundle → Edits ω)
    (group : String × List Bundle) : Action (World ω) GroupEvaluation := do
  let resolutions ← d.resolveContested edits 0 group.2
  pure (.of group.1 resolutions)

/-- A group from compiling to publishing, with edits from when the rules of its first bundle are read
until all rules are stored. -/
def evaluateContested (d : Deployment ω) (edits : List Bundle → Edits ω)
    (group : String × List Bundle) : Action (World ω) GroupEvaluation := do
  let g ← d.compileContested edits group
  (d.contested (edits [])).apply g
  pure g

theorem resolveContested_same (d : Deployment ω) (edits : Edits ω) (offset : UInt64)
    (bundles : List Bundle) :
    d.resolveContested (fun _ => edits) offset bundles =
      (d.contested edits).resolveBundles offset bundles := by
  induction bundles generalizing offset with
  | nil => rfl
  | cons b bs ih =>
    rw [resolveContested, Evaluator.resolveBundles]
    simp only [ih]

/-- **With the same edits throughout**, this is what the contested evaluator does with the group. -/
theorem evaluateContested_same (d : Deployment ω) (edits : Edits ω)
    (group : String × List Bundle) :
    d.evaluateContested (fun _ => edits) group = (d.contested edits).evaluateGroup group := by
  unfold evaluateContested compileContested
  rw [resolveContested_same]
  rfl

end Deployment

end Worlds

namespace Sample

/-- The rule of the first bundle is changed to drop what it passed, just before it is stored. -/
def edits : Edits Unit
  | .put _, _ =>
    [⟨"r1", "b1", "drop", "tcp", "o1", .any, "o2", .single "443", .pending, [], none, 0, none⟩]
  | _, _ => []

/-- Two bundles of one rule group, with a rule each. -/
def pair : World Unit where
  ledger :=
    { store :=
        { store with
          bundles := [.new "b1" "g1" "", .new "b2" "g1" ""]
          rules := store.rules ++ [⟨"r2", "b2", "pass", "ip", "o2", .any, "o1", .any, .pending, [],
            none, 0, none⟩] }
      journal := [] }
  outside := ()

/-- The rule of the first bundle is changed whenever objects are read, and that of the second moves to
another bundle just before it is stored. -/
def pairEdits : List Bundle → Edits Unit
  | _, .objects _, _ =>
    [⟨"r1", "b1", "drop", "tcp", "o1", .any, "o2", .single "443", .pending, [], none, 0, none⟩]
  | [], .put _, _ =>
    [⟨"r2", "b3", "pass", "ip", "o2", .any, "o1", .any, .pending, [], none, 0, none⟩]
  | _, _, _ => []

end Sample

/-! ## Rules that were read -/

/-- The rule has the id of one that was read, and is in no bundle that is still to be read, neither
before nor after it is edited. -/
structure Rule.OfRead (s : Store.Snapshot) (read unread : List Bundle) (x : Rule) : Prop where
  known : ∃ b ∈ read, x.id ∈ (s.rulesOf b.id).map Rule.id
  away : ∀ b ∈ unread, x.bundleId ≠ b.id ∧ x.id ∉ (s.rulesOf b.id).map Rule.id

/-- A rule is still one of those that were read when more are read. -/
theorem Rule.OfRead.append {s : Store.Snapshot} {read more unread : List Bundle} {x : Rule}
    (h : x.OfRead s read (more ++ unread)) : x.OfRead s (read ++ more) unread := by
  obtain ⟨b, hb, hx⟩ := h.known
  exact ⟨⟨b, List.mem_append_left _ hb, hx⟩, fun b hb => h.away b (List.mem_append_right _ hb)⟩

namespace Action

variable {σ τ α β : Type} {R R' R'' : σ → τ → Prop}

/-- In worlds that are related in one way two actions give the same result, or fail in the same way,
and the worlds they leave are related in another way. -/
def AlikeTo (R R' : σ → τ → Prop) (a : Action σ α) (b : Action τ α) : Prop :=
  ∀ s t, R s t → (a.perform s).1 = (b.perform t).1 ∧ R' (a.perform s).2 (b.perform t).2

theorem AlikeTo.mono {a : Action σ α} {b : Action τ α} (h : AlikeTo R R' a b)
    (hle : ∀ s t, R' s t → R'' s t) : AlikeTo R R'' a b :=
  fun s t hst => ⟨(h s t hst).1, hle _ _ (h s t hst).2⟩

theorem AlikeTo.bind {a : Action σ α} {b : Action τ α} {f : α → Action σ β} {g : α → Action τ β}
    (hab : AlikeTo R R' a b) (hle : ∀ s t, R' s t → R'' s t)
    (hfg : ∀ x, AlikeTo R' R'' (f x) (g x)) : AlikeTo R R'' (a >>= f) (b >>= g) := by
  intro s t hst
  obtain ⟨hresult, hworld⟩ := hab s t hst
  rw [perform_bind, perform_bind]
  rcases ha : a.perform s with ⟨e | x, s'⟩ <;> rcases hb : b.perform t with ⟨e' | y, t'⟩ <;>
    rw [ha, hb] at hresult hworld
  · cases hresult
    exact ⟨rfl, hle _ _ hworld⟩
  · cases hresult
  · cases hresult
  · cases hresult
    exact hfg x s' t' hworld

end Action

/-! ## The same with edits -/

section Edited

variable {ω : Type}

/-- The second world is the first, which has some store, with edits of some rules. -/
def World.Edited (s : Store.Snapshot) (P : Rule → Prop) (w w' : World ω) : Prop :=
  w.store = s ∧ ∃ made, (∀ x ∈ made, P x) ∧ w' = w.edited made

variable {s : Store.Snapshot} {P P' : Rule → Prop} {d : Deployment ω}

theorem World.Edited.mono {w w' : World ω} (h : World.Edited s P w w') (hle : ∀ x, P x → P' x) :
    World.Edited s P' w w' := by
  obtain ⟨hs, made, hmade, hw⟩ := h
  exact ⟨hs, made, fun x hx => hle x (hmade x hx), hw⟩

/-- An action that edits cannot disturb is not disturbed by edits just before it. -/
theorem Edits.alike_now {edits : Edits ω} (hedits : ∀ m o, ∀ x ∈ edits m o, P x) {α : Type}
    (m : Moment) {a : Action (World ω) α} (ha : Action.Alike (World.Edited s P) a a) :
    Action.Alike (World.Edited s P) a (edits.now m >>= fun _ => a) := by
  rintro w _ ⟨hs, made, hmade, rfl⟩
  refine ha w _ ⟨hs, made ++ edits m w.outside, fun x hx => ?_, World.edited_edited _ _ _⟩
  exact (List.mem_append.1 hx).elim (hmade x) (hedits m _ x)

/-- Edits do not disturb what is asked outside. -/
theorem World.alike_onOutside {α : Type} (a : Action ω α) :
    Action.Alike (World.Edited s P) (World.onOutside a) (World.onOutside a) := by
  rintro w _ ⟨hs, made, hmade, rfl⟩
  exact ⟨rfl, hs, made, hmade, rfl⟩

namespace Deployment

/-- Edits of rules do not disturb the objects. -/
theorem alike_objectsWith (d : Deployment ω) (objectIds : List String) :
    Action.Alike (World.Edited s P) (d.repository.objectsWith objectIds)
      (d.repository.objectsWith objectIds) := by
  refine Action.alike_bind (World.alike_onOutside _) fun _ => ?_
  rintro w _ ⟨hs, made, hmade, rfl⟩
  refine ⟨?_, hs, made, hmade, rfl⟩
  show Except.ok (w.store.objectsWith objectIds) =
    Except.ok ((w.store.putRules made).objectsWith objectIds)
  unfold Store.Snapshot.objectsWith
  rw [Store.Snapshot.objects_putRules]

/-- Edits of rules that stay away from a bundle do not disturb its rules. -/
theorem alike_rulesOf (d : Deployment ω) {bundleId : String}
    (haway : ∀ x, P x → x.bundleId ≠ bundleId ∧ x.id ∉ (s.rulesOf bundleId).map Rule.id) :
    Action.Alike (World.Edited s P) (d.repository.rulesOf bundleId)
      (d.repository.rulesOf bundleId) := by
  refine Action.alike_bind (World.alike_onOutside _) fun _ => ?_
  rintro w _ ⟨hs, made, hmade, rfl⟩
  refine ⟨?_, hs, made, hmade, rfl⟩
  show Except.ok (w.store.rulesOf bundleId) = Except.ok ((w.store.putRules made).rulesOf bundleId)
  rw [Store.Snapshot.rulesOf_putRules_of_ne fun x hx => hs ▸ haway x (hmade x hx)]

/-- **Edits do not disturb a bundle**: those that were made before stay away from it, and those that
are made from then on come too late. -/
theorem resolveBundle_contested {edits : Edits ω} (hedits : ∀ m o, ∀ x ∈ edits m o, P' x)
    (offset : UInt64) {b : Bundle}
    (haway : ∀ x, P x → x.bundleId ≠ b.id ∧ x.id ∉ (s.rulesOf b.id).map Rule.id)
    (hle : ∀ x, P x → P' x) :
    Action.AlikeTo (World.Edited s P) (World.Edited s P') (d.evaluator.resolveBundle offset b)
      ((d.contested edits).resolveBundle offset b) := by
  have hcompiler : d.evaluator.compiler.Alike (World.Edited s P') (d.contested edits).compiler :=
    ⟨rfl, ⟨fun aggregator q => edits.alike_now hedits _ (World.alike_onOutside _), rfl⟩, rfl⟩
  have hread : Action.AlikeTo (World.Edited s P) (World.Edited s P')
      (d.evaluator.repository.rulesOf b.id) ((d.contested edits).repository.rulesOf b.id) :=
    Action.AlikeTo.mono (d.alike_rulesOf haway) fun _ _ h => h.mono hle
  refine hread.bind (fun _ _ h => h) fun rules => ?_
  refine Action.alike_bind (edits.alike_now hedits _ (d.alike_objectsWith _)) fun objects => ?_
  exact hcompiler.resolveRules b rules objects offset

/-- **Edits do not disturb a group**: they are made to rules that were read. -/
theorem resolveContested_alike {edits : List Bundle → Edits ω} (offset : UInt64)
    {read bundles : List Bundle}
    (hedits : ∀ now unread, bundles = now ++ unread → now ≠ [] → ∀ m o, ∀ x ∈ edits unread m o,
      x.OfRead s (read ++ now) unread) :
    Action.AlikeTo (World.Edited s (Rule.OfRead s read bundles))
      (World.Edited s (Rule.OfRead s (read ++ bundles) []))
      (d.evaluator.resolveBundles offset bundles) (d.resolveContested edits offset bundles) := by
  induction bundles generalizing read offset with
  | nil =>
    refine Action.AlikeTo.mono (Action.alike_pure []) fun _ _ h => ?_
    rwa [List.append_nil]
  | cons b bs ih =>
    have hbundle : Action.AlikeTo (World.Edited s (Rule.OfRead s read (b :: bs)))
        (World.Edited s (Rule.OfRead s (read ++ [b]) bs)) (d.evaluator.resolveBundle offset b)
        ((d.contested (edits bs)).resolveBundle offset b) :=
      resolveBundle_contested (hedits [b] bs rfl (List.cons_ne_nil b [])) offset
        (fun x hx => hx.away b List.mem_cons_self) fun x (hx : x.OfRead s read ([b] ++ bs)) =>
          hx.append
    have hall : read ++ b :: bs = read ++ [b] ++ bs := by rw [List.append_assoc]; rfl
    have hlater : ∀ w w' : World ω, World.Edited s (Rule.OfRead s (read ++ [b]) bs) w w' →
        World.Edited s (Rule.OfRead s (read ++ b :: bs) []) w w' := by
      intro w w' h
      refine h.mono fun x hx => ?_
      rw [hall]
      exact Rule.OfRead.append (by rwa [List.append_nil])
    refine hbundle.bind hlater fun r => ?_
    rw [hall]
    refine Action.AlikeTo.bind (ih r.lastSid ?_) (fun _ _ h => h) fun rest => Action.alike_pure _
    intro now unread hsplit _ m o x hx
    rw [List.append_assoc]
    exact hedits (b :: now) unread (congrArg (b :: ·) hsplit) (List.cons_ne_nil b now) m o x hx

/-- Edits do not disturb compiling. -/
theorem compileContested_alike {group : String × List Bundle} {edits : List Bundle → Edits ω}
    (hedits : ∀ read unread, group.2 = read ++ unread → read ≠ [] → ∀ m o, ∀ x ∈ edits unread m o,
      x.OfRead s read unread) :
    Action.AlikeTo (World.Edited s (Rule.OfRead s [] group.2))
      (World.Edited s (Rule.OfRead s group.2 [])) (d.evaluator.compileGroup group.1 group.2)
      (d.compileContested edits group) := by
  have hbundles : Action.AlikeTo (World.Edited s (Rule.OfRead s [] group.2))
      (World.Edited s (Rule.OfRead s group.2 [])) (d.evaluator.resolveBundles 0 group.2)
      (d.resolveContested edits 0 group.2) := resolveContested_alike 0 hedits
  exact hbundles.bind (fun _ _ h => h) fun resolutions => Action.alike_pure _

end Deployment

/-- Storing rules refuses or overwrites all edits of them. -/
theorem Deployment.putRules_edited (d : Deployment ω) {rules made : List Rule} {w : World ω}
    (hs : ∀ x ∈ made, x.id ∈ w.store.rules.map Rule.id)
    (hmade : ∀ x ∈ made, x.id ∈ rules.map Rule.id) :
    (∃ e o, (d.repository.putRules rules).perform w = (.error e, ⟨w.ledger, o⟩) ∧
      (d.repository.putRules rules).perform (w.edited made) =
        (.error e, World.edited ⟨w.ledger, o⟩ made)) ∨
    ∃ w', (d.repository.putRules rules).perform w = (.ok (), w') ∧
      (d.repository.putRules rules).perform (w.edited made) = (.ok (), w') := by
  rcases hpermit : (d.permit (.put rules)).perform w.outside with ⟨e | ⟨⟩, o⟩
  · have hout : ∀ v : World ω, v.outside = w.outside →
        (World.onOutside (d.permit (.put rules))).perform v = (.error e, ⟨v.ledger, o⟩) := by
      intro v hv
      rw [World.perform_onOutside, hv, hpermit]
    exact Or.inl ⟨e, o, Action.perform_bind_of_error (hout w rfl) _,
      Action.perform_bind_of_error (hout (w.edited made) rfl) _⟩
  · have hout : ∀ v : World ω, v.outside = w.outside →
        (World.onOutside (d.permit (.put rules))).perform v = (.ok (), ⟨v.ledger, o⟩) := by
      intro v hv
      rw [World.perform_onOutside, hv, hpermit]
    refine Or.inr ⟨⟨w.ledger.put rules, o⟩, Action.perform_bind_of_ok (hout w rfl) _, ?_⟩
    refine (Action.perform_bind_of_ok (hout (w.edited made) rfl) _).trans ?_
    have hstore : (w.store.putRules made).putRules rules = w.store.putRules rules :=
      Store.Snapshot.putRules_putRules hs hmade
    show (Except.ok (), (⟨⟨(w.store.putRules made).putRules rules, _⟩, o⟩ : World ω)) = _
    rw [hstore]
    rfl

end Edited

/-! ## What becomes of edits -/

namespace Deployment

variable {ω : Type} {d : Deployment ω} {group : String × List Bundle} {w v : World ω}

/-- A group is compiled to the same, and leaves the edits that were made. -/
theorem compileGroup_contested {edits : List Bundle → Edits ω}
    (hedits : ∀ read unread, group.2 = read ++ unread → read ≠ [] → ∀ m o, ∀ x ∈ edits unread m o,
      x.OfRead w.store read unread)
    {result : Except Error GroupEvaluation}
    (h : (d.evaluator.compileGroup group.1 group.2).perform w = (result, v)) :
    ∃ made, (∀ x ∈ made, x.OfRead w.store group.2 []) ∧
      (d.compileContested edits group).perform w = (result, v.edited made) := by
  -- nobody has edited anything when the first rules are read
  obtain ⟨hresult, -, made, hmade, hworld⟩ :=
    compileContested_alike (d := d) hedits w w ⟨rfl, [], fun x hx => (by cases hx), rfl⟩
  rw [h] at hresult hworld
  exact ⟨made, hmade, Prod.ext hresult.symm hworld⟩

/-- The rules to store for a group are those that were read, which are still in the store. -/
theorem ofRead_iff_of_compileGroup {g : GroupEvaluation}
    (h : (d.evaluator.compileGroup group.1 group.2).perform w = (.ok g, v)) :
    v.ledger = w.ledger ∧
      (∀ x : Rule, x.OfRead w.store group.2 [] ↔ x.id ∈ g.updatedRules.map Rule.id) ∧
      ∀ id ∈ g.updatedRules.map Rule.id, id ∈ v.store.rules.map Rule.id := by
  have hledger : v.ledger = w.ledger := (d.keeps_compileGroup _ _).of_perform h
  have hids : g.updatedRules.map Rule.id =
      group.2.flatMap fun b => (w.store.rulesOf b.id).map Rule.id :=
    (d.evaluates_of_compileGroup h).map_id_updatedRules
  refine ⟨hledger, fun x => ?_, fun id hid => ?_⟩
  · rw [hids, List.mem_flatMap]
    exact ⟨fun hx => hx.known, fun hx => ⟨hx, fun b hb => by cases hb⟩⟩
  · rw [hids, List.mem_flatMap] at hid
    obtain ⟨b, -, hid⟩ := hid
    obtain ⟨r, hr, rfl⟩ := List.mem_map.1 hid
    rw [show v.store = w.store from congrArg Ledger.store hledger]
    exact List.mem_map_of_mem (Store.Snapshot.mem_rulesOf.1 hr).1

/-- **Storing and publishing with edits**: the rules are refused and the edits stay, or the rules
are stored and everything is as without edits. -/
theorem apply_contested {edits : Edits ω} {g : GroupEvaluation} {made : List Rule}
    (hs : ∀ id ∈ g.updatedRules.map Rule.id, id ∈ w.store.rules.map Rule.id)
    (hmade : ∀ x ∈ made, x.id ∈ g.updatedRules.map Rule.id)
    (hedits : ∀ m o, ∀ x ∈ edits m o, x.id ∈ g.updatedRules.map Rule.id) :
    (∃ e o made', (∀ x ∈ made', x.id ∈ g.updatedRules.map Rule.id) ∧
      (d.evaluator.apply g).perform w = (.error e, ⟨w.ledger, o⟩) ∧
      ((d.contested edits).apply g).perform (w.edited made) =
        (.error e, World.edited ⟨w.ledger, o⟩ made')) ∨
    ∃ w', (d.repository.putRules g.updatedRules).perform w = (.ok (), w') ∧
      (d.evaluator.apply g).perform w = (d.publisher g.update).perform w' ∧
      ((d.contested edits).apply g).perform (w.edited made) =
        (d.publisher g.update).perform w' := by
  have hall : ∀ x ∈ made ++ edits (.put g.updatedRules) w.outside,
      x.id ∈ g.updatedRules.map Rule.id := by
    intro x hx
    exact (List.mem_append.1 hx).elim (hmade x) (hedits _ _ x)
  have hput : ((d.contested edits).repository.putRules g.updatedRules).perform (w.edited made) =
      (d.repository.putRules g.updatedRules).perform
        (w.edited (made ++ edits (.put g.updatedRules) w.outside)) := by
    rw [← World.edited_edited]
    rfl
  rcases d.putRules_edited (fun x hx => hs _ (hall x hx)) hall with
    ⟨e, o, hplain, hedited⟩ | ⟨w', hplain, hedited⟩
  · exact Or.inl ⟨e, o, _, hall, Action.perform_bind_of_error hplain _,
      Action.perform_bind_of_error (hput.trans hedited) _⟩
  · exact Or.inr ⟨w', hplain, Action.perform_bind_of_ok hplain _,
      Action.perform_bind_of_ok (hput.trans hedited) _⟩

/-- An evaluation that has stored rules succeeds, or its update is refused. -/
theorem stored_of_put {result : Except Error GroupEvaluation} {g : GroupEvaluation} {w₁ w₂ : World ω}
    (h : (d.evaluator.evaluateGroup group).perform w = (result, v))
    (hcompile : (d.evaluator.compileGroup group.1 group.2).perform w = (.ok g, w₁))
    (hput : (d.repository.putRules g.updatedRules).perform w₁ = (.ok (), w₂)) :
    (∃ g, result = .ok g) ∨ d.PublishRefused group w v := by
  have happly : (d.evaluator.apply g).perform w₁ = (d.publisher g.update).perform w₂ :=
    Action.perform_bind_of_ok hput _
  rw [show (d.evaluator.evaluateGroup group).perform w =
    (d.evaluator.apply g >>= fun _ => pure g).perform w₁ from
      Action.perform_bind_of_ok hcompile _] at h
  rcases hpublish : (d.publisher g.update).perform w₂ with ⟨e | ⟨⟩, w₃⟩
  · rw [Action.perform_bind_of_error (happly.trans hpublish)] at h
    cases h
    exact Or.inr ⟨g, w₁, w₂, e, hcompile, hput, hpublish⟩
  · rw [Action.perform_bind_of_ok (happly.trans hpublish)] at h
    cases h
    exact Or.inl ⟨g, rfl⟩

/-- When an evaluation has stored rules, each rule that was read is there, renewed. -/
theorem renewed_of_stored {result : Except Error GroupEvaluation}
    (h : (d.evaluator.evaluateGroup group).perform w = (result, v))
    (hstored : (∃ g, result = .ok g) ∨ d.PublishRefused group w v)
    (hn : (w.store.rules.map Rule.id).Nodup) {b : Bundle} (hb : b ∈ group.2) :
    List.Forall₂ Rule.Renewed (w.store.rulesOf b.id) (v.store.rulesOf b.id) := by
  rcases hstored with ⟨g, rfl⟩ | hrefused
  · obtain ⟨heval, hledger⟩ := d.evaluateGroup_ok h
    rw [show v.store = w.store.putRules g.updatedRules from congrArg Ledger.store hledger]
    exact heval.forall₂_putRules hn hb
  · exact hrefused.rulesOf hn hb

/-- **Edits during an evaluation are lost**, whatever they change of the rules that were read, and
wherever they are made between reading the rules and storing them: if the evaluation stores rules, it
ends in the very same world as without edits, with the rules that it had read.  Only if it fails before
storing anything do the edits stay. -/
theorem evaluateGroup_contested (hne : group.2 ≠ []) {edits : List Bundle → Edits ω}
    (hedits : ∀ read unread, group.2 = read ++ unread → read ≠ [] → ∀ m o, ∀ x ∈ edits unread m o,
      x.OfRead w.store read unread)
    {result : Except Error GroupEvaluation}
    (h : (d.evaluator.evaluateGroup group).perform w = (result, v)) :
    (((∃ g, result = .ok g) ∨ d.PublishRefused group w v) ∧
      (d.evaluateContested edits group).perform w = (result, v) ∧
      ((w.store.rules.map Rule.id).Nodup → ∀ b ∈ group.2,
        List.Forall₂ Rule.Renewed (w.store.rulesOf b.id) (v.store.rulesOf b.id))) ∨
    (v.ledger = w.ledger ∧
      ∃ made, (∀ x ∈ made, x.OfRead w.store group.2 []) ∧
        (d.evaluateContested edits group).perform w = (result, v.edited made)) := by
  rcases hcompile : (d.evaluator.compileGroup group.1 group.2).perform w with ⟨e | g, w₁⟩
  · obtain ⟨made, hmade, hedited⟩ := compileGroup_contested hedits hcompile
    rw [show (d.evaluator.evaluateGroup group).perform w = (.error e, w₁) from
      Action.perform_bind_of_error hcompile _] at h
    cases h
    exact Or.inr ⟨(d.keeps_compileGroup _ _).of_perform hcompile, made, hmade,
      Action.perform_bind_of_error hedited _⟩
  · obtain ⟨made, hmade, hedited⟩ := compileGroup_contested hedits hcompile
    obtain ⟨hledger, hread, hstored⟩ := ofRead_iff_of_compileGroup hcompile
    have hlast : ∀ m o, ∀ x ∈ edits [] m o, x.id ∈ g.updatedRules.map Rule.id := fun m o x hx =>
      (hread x).1 (hedits group.2 [] (List.append_nil _).symm hne m o x hx)
    have hplain : (d.evaluator.evaluateGroup group).perform w =
        (d.evaluator.apply g >>= fun _ => pure g).perform w₁ := Action.perform_bind_of_ok hcompile _
    have hcontested : (d.evaluateContested edits group).perform w =
        ((d.contested (edits [])).apply g >>= fun _ => pure g).perform (w₁.edited made) :=
      Action.perform_bind_of_ok hedited _
    rcases apply_contested hstored (fun x hx => (hread x).1 (hmade x hx)) hlast with
      ⟨e, o, made', hmade', happly, happly'⟩ | ⟨w₂, hput, happly, happly'⟩
    · rw [hplain, Action.perform_bind_of_error happly] at h
      cases h
      exact Or.inr ⟨hledger, made', fun x hx => (hread x).2 (hmade' x hx),
        hcontested.trans (Action.perform_bind_of_error happly' _)⟩
    · have hdone := stored_of_put h hcompile hput
      have hsame : (d.evaluateContested edits group).perform w =
          (d.evaluator.evaluateGroup group).perform w := by
        rw [hcontested, hplain, Action.perform_bind, Action.perform_bind, happly', happly]
      exact Or.inl ⟨hdone, hsame.trans h, fun hn b hb => renewed_of_stored h hdone hn hb⟩

/-- Rules of two bundles are edited while the two are evaluated: the evaluation ends as without the
edits. -/
theorem evaluateGroup_contested_sample :
    Sample.pair.store.bundles ≠ [] ∧
    (∀ read unread, Sample.pair.store.bundles = read ++ unread → read ≠ [] → ∀ m o,
      ∀ x ∈ Sample.pairEdits unread m o, x.OfRead Sample.pair.store read unread) ∧
    (Sample.pair.store.rules.map Rule.id).Nodup ∧
    ∃ result v,
      ((Sample.deployment []).evaluator.evaluateGroup ("g1", Sample.pair.store.bundles)).perform
        Sample.pair = (result, v) ∧
      ((Sample.deployment []).evaluateContested Sample.pairEdits
        ("g1", Sample.pair.store.bundles)).perform Sample.pair = (result, v) ∧
      ∀ b ∈ Sample.pair.store.bundles,
        List.Forall₂ Rule.Renewed (Sample.pair.store.rulesOf b.id) (v.store.rulesOf b.id) := by
  have hne : Sample.pair.store.bundles ≠ [] := List.cons_ne_nil _ _
  have hedits : ∀ read unread, Sample.pair.store.bundles = read ++ unread → read ≠ [] → ∀ m o,
      ∀ x ∈ Sample.pairEdits unread m o, x.OfRead Sample.pair.store read unread := by
    intro read unread hsplit hread m o x hx
    -- the first bundle was read in any case
    obtain ⟨b, read, rfl⟩ := List.exists_cons_of_ne_nil hread
    obtain ⟨rfl, hrest⟩ := List.cons.inj hsplit
    cases m with
    | objects ids =>
      have hx' : x ∈ [_] := hx
      rw [List.mem_singleton.1 hx']
      refine ⟨⟨_, List.mem_cons_self, by decide⟩, fun b hb => ?_⟩
      have hb' : b ∈ [Bundle.new "b2" "g1" ""] := hrest ▸ List.mem_append_right read hb
      rw [List.mem_singleton.1 hb']
      decide
    | query aggregator q => cases unread <;> cases hx
    | put rules =>
      cases unread with
      | nil =>
        have hx' : x ∈ [_] := hx
        rw [List.mem_singleton.1 hx']
        have hrest' : [Bundle.new "b2" "g1" ""] = read := hrest.trans (List.append_nil read)
        refine ⟨⟨.new "b2" "g1" "", ?_, by decide⟩, fun b hb => by cases hb⟩
        exact List.mem_cons_of_mem _ (hrest' ▸ List.mem_cons_self)
      | cons b unread => cases hx
  have hn : (Sample.pair.store.rules.map Rule.id).Nodup := by decide
  have hplain : ((Sample.deployment []).evaluator.evaluateGroup
      ("g1", Sample.pair.store.bundles)).perform Sample.pair = (_, _) := rfl
  rcases evaluateGroup_contested hne hedits hplain with ⟨-, hcontested, hrenewed⟩ | ⟨hledger, -⟩
  · exact ⟨hne, hedits, hn, _, _, rfl, hcontested, hrenewed hn⟩
  · have hjournal := congrArg (fun l => l.journal.length) hledger
    exact absurd hjournal (by decide +kernel)

/-- **An edit is lost**: the action of a rule is changed before the rule is stored, and after the
evaluation it is what it was when the rule was read. -/
theorem evaluateGroup_contested_lost :
    ∃ before edited after g w', Sample.world.store.rulesOf "b1" = [before] ∧
      before.action = "pass" ∧
      (∀ rules o, Sample.edits (.put rules) o = [edited]) ∧ edited.id = before.id ∧
      edited.action = "drop" ∧
      (((Sample.deployment []).contested Sample.edits).evaluateGroup
        ("g1", [.new "b1" "g1" ""])).perform Sample.world = (.ok g, w') ∧
      w'.store.rulesOf "b1" = [after] ∧ after.action = "pass" :=
  ⟨_, _, _, _, _, rfl, rfl, fun _ _ => rfl, rfl, rfl, rfl, rfl, rfl⟩

end Deployment

end Firewall
