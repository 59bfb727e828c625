/-
# Rules and their lines

A resolution that succeeds has settled every rule: it failed with a reason and has no lines, or it
is active and carries its own lines.  The lines of the resolution are those of its active rules, in
order; so they can be told from the rules alone.

* `Rule.Carries` : an active rule with its lines;
* `Rule.LinesOf` : the lines of the active rules among some rules;
* `Rule.LinesOf.joinLines_eq` : joining lines is joining what the rules carry;
* `Resolution.Settles` : what a resolution makes of the rules of a bundle;
* `Compiler.settles_of_perform` : a resolution that succeeds settles its rules;
* `Compiler.alike_resolveRules` : two resolutions by inventories that answer alike;
* `Compiler.steady_resolveRules` : resolutions by an inventory that always answers alike.
-/
import Firewall.Proofs.Resolver.Alike
import Firewall.Resolution

namespace Firewall

namespace Rule

/-! ## Active rules -/

/-- An active rule that carries lines: they are its own, and their texts joined are its text. -/
structure Carries (r : Rule) (lines : List CompiledRule) : Prop where
  status : r.status = .active
  compiled : ∃ sources destinations last, lines = r.compile sources destinations last
  text : r.suricata = some (CompiledRule.joinLines lines)
  nonempty : lines ≠ []

/-- The active ones among rules. -/
def activeOf (rules : List Rule) : List Rule := rules.filter fun r => r.status = .active

theorem activeOf_cons_of_active {r : Rule} (h : r.status = .active) (rules : List Rule) :
    activeOf (r :: rules) = r :: activeOf rules :=
  List.filter_cons_of_pos (by rw [h]; rfl)

theorem activeOf_cons_of_not_active {r : Rule} (h : r.status ≠ .active) (rules : List Rule) :
    activeOf (r :: rules) = activeOf rules :=
  List.filter_cons_of_neg (by simpa using h)

theorem activeOf_append (rules rules' : List Rule) :
    activeOf (rules ++ rules') = activeOf rules ++ activeOf rules' :=
  List.filter_append rules rules'

/-- A rule a version later. -/
def bump (r : Rule) : Rule := { r with version := r.version + 1 }

/-- The lines of a rule with addresses on both sides are not none. -/
theorem compile_ne_nil (r : Rule) {sources destinations : List String} (hs : sources ≠ [])
    (hd : destinations ≠ []) (last : UInt64) : r.compile sources destinations last ≠ [] := by
  rw [← List.length_pos_iff, length_compile]
  exact Nat.mul_pos (List.length_pos_iff.2 hs) (List.length_pos_iff.2 hd)

/-- A rule that is activated with its lines carries them. -/
theorem carries_activate (r : Rule) {sources destinations : List String} (hs : sources ≠ [])
    (hd : destinations ≠ []) (last : UInt64) :
    (r.activate (CompiledRule.joinLines (r.compile sources destinations last))).Carries
      (r.compile sources destinations last) :=
  ⟨rfl, ⟨sources, destinations, last, rfl⟩, rfl, r.compile_ne_nil hs hd last⟩

theorem Carries.bump {r : Rule} {lines : List CompiledRule} (h : r.Carries lines) :
    r.bump.Carries lines :=
  ⟨h.status, h.compiled, h.text, h.nonempty⟩

/-! ## The lines of rules -/

/-- The lines of the active rules among some rules, in order. -/
inductive LinesOf : List Rule → List CompiledRule → Prop
  | nil : LinesOf [] []
  | skip {r : Rule} {rules : List Rule} {lines : List CompiledRule} (hr : r.status ≠ .active)
      (h : LinesOf rules lines) : LinesOf (r :: rules) lines
  | active {r : Rule} {rules : List Rule} {own lines : List CompiledRule} (hr : r.Carries own)
      (h : LinesOf rules lines) : LinesOf (r :: rules) (own ++ lines)

namespace LinesOf

variable {rules rules' : List Rule} {lines lines' : List CompiledRule}

theorem append (h : LinesOf rules lines) (h' : LinesOf rules' lines') :
    LinesOf (rules ++ rules') (lines ++ lines') := by
  induction h with
  | nil => exact h'
  | skip hr _ ih => exact .skip hr ih
  | active hr _ ih =>
    rw [List.append_assoc]
    exact .active hr ih

theorem map_bump (h : LinesOf rules lines) : LinesOf (rules.map bump) lines := by
  induction h with
  | nil => exact .nil
  | skip hr _ ih => exact .skip hr ih
  | active hr _ ih => exact .active hr.bump ih

/-- There are no lines exactly if no rule is active. -/
theorem eq_nil_iff (h : LinesOf rules lines) : lines = [] ↔ activeOf rules = [] := by
  induction h with
  | nil => exact ⟨fun _ => rfl, fun _ => rfl⟩
  | skip hr _ ih => rw [ih, activeOf_cons_of_not_active hr]
  | active hr _ ih =>
    rw [activeOf_cons_of_active hr.status, List.append_eq_nil_iff]
    exact ⟨fun h => absurd h.1 hr.nonempty, fun h => absurd h (List.cons_ne_nil _ _)⟩

/-- There are no texts exactly if there are no lines. -/
theorem texts_eq_nil_iff (h : LinesOf rules lines) :
    (activeOf rules).filterMap Rule.suricata = [] ↔ lines = [] := by
  induction h with
  | nil => exact ⟨fun _ => rfl, fun _ => rfl⟩
  | skip hr _ ih => rw [activeOf_cons_of_not_active hr, ih]
  | active hr _ ih =>
    rw [activeOf_cons_of_active hr.status, List.filterMap_cons, hr.text, List.append_eq_nil_iff]
    exact ⟨fun h => absurd h (List.cons_ne_nil _ _), fun h => absurd h.1 hr.nonempty⟩

/-- **Joining lines is joining what the active rules carry.** -/
theorem joinLines_eq (h : LinesOf rules lines) :
    CompiledRule.joinLines lines = "\n".intercalate ((activeOf rules).filterMap Rule.suricata) := by
  induction h with
  | nil => rfl
  | skip hr _ ih => rw [ih, activeOf_cons_of_not_active hr]
  | @active r rules own lines hr h ih =>
    rw [activeOf_cons_of_active hr.status, List.filterMap_cons, hr.text]
    by_cases hlines : lines = []
    · have htexts := h.texts_eq_nil_iff.2 hlines
      rw [hlines, htexts, List.append_nil]
      exact String.intercalate_singleton.symm
    · have htexts := mt h.texts_eq_nil_iff.1 hlines
      unfold CompiledRule.joinLines at ih ⊢
      rw [List.map_append, String.intercalate_append_of_ne_nil (by simpa using hr.nonempty)
        (by simpa using hlines), ih]
      exact (String.intercalate_cons_of_ne_nil htexts).symm

/-- Every active rule carries lines, which stand together. -/
theorem exists_carries_infix (h : LinesOf rules lines) {r : Rule} (hr : r ∈ activeOf rules) :
    ∃ own, r.Carries own ∧ own <:+: lines := by
  induction h with
  | nil => cases hr
  | skip hs _ ih =>
    rw [activeOf_cons_of_not_active hs] at hr
    exact ih hr
  | active hc _ ih =>
    rw [activeOf_cons_of_active hc.status, List.mem_cons] at hr
    rcases hr with rfl | hr
    · exact ⟨_, hc, (List.prefix_append _ _).isInfix⟩
    · obtain ⟨own, hown, hinfix⟩ := ih hr
      exact ⟨own, hown, hinfix.trans (List.suffix_append _ _).isInfix⟩

theorem exists_carries (h : LinesOf rules lines) {r : Rule} (hr : r ∈ activeOf rules) :
    ∃ own, r.Carries own := by
  obtain ⟨own, hown, -⟩ := h.exists_carries_infix hr
  exact ⟨own, hown⟩

/-- **Every line is carried** by an active rule. -/
theorem exists_carries_of_mem (h : LinesOf rules lines) {l : CompiledRule} (hl : l ∈ lines) :
    ∃ r ∈ activeOf rules, ∃ own, r.Carries own ∧ l ∈ own := by
  induction h with
  | nil => cases hl
  | skip hs _ ih =>
    rw [activeOf_cons_of_not_active hs]
    exact ih hl
  | active hc _ ih =>
    rw [activeOf_cons_of_active hc.status]
    rcases List.mem_append.1 hl with hl | hl
    · exact ⟨_, List.mem_cons_self, _, hc, hl⟩
    · obtain ⟨r, hr, own, hown, hlown⟩ := ih hl
      exact ⟨r, List.mem_cons_of_mem _ hr, own, hown, hlown⟩

end LinesOf

/-! ## Settled rules -/

/-- What a resolution makes of a rule: it fails with a reason, or is active and carries lines. -/
inductive SettledAs (r : Rule) : Rule → Prop
  | failed (reason : String) : SettledAs r (r.fail reason)
  | active {lines : List CompiledRule}
      (h : (r.activate (CompiledRule.joinLines lines)).Carries lines) :
      SettledAs r (r.activate (CompiledRule.joinLines lines))

namespace SettledAs

variable {r r' : Rule}

theorem id_eq (h : SettledAs r r') : r'.id = r.id := by
  cases h <;> rfl

theorem bundleId_eq (h : SettledAs r r') : r'.bundleId = r.bundleId := by
  cases h <;> rfl

theorem version_eq (h : SettledAs r r') : r'.version = r.version := by
  cases h <;> rfl

/-- A failed rule has no text. -/
theorem suricata_eq_none (h : SettledAs r r') (hf : r'.status = .failed) : r'.suricata = none := by
  cases h with
  | failed reason => rfl
  | active _ => cases hf

end SettledAs

end Rule

/-! ## Outcomes -/

namespace RuleOutcome

/-- The outcome is about a rule: it failed, or there are addresses on both sides. -/
inductive About (r : Rule) : RuleOutcome → Prop
  | failed (reason : String) : About r (.failed (r.fail reason))
  | resolved {sources destinations : List String} (hs : sources ≠ []) (hd : destinations ≠ []) :
      About r (.resolved r sources destinations)

end RuleOutcome

namespace Resolution

theorem isDefaultDeny_iff (r : Resolution) :
    r.isDefaultDeny = true ↔ Rule.activeOf r.rules = [] := by
  unfold isDefaultDeny Rule.activeOf
  rw [List.all_eq_true, List.filter_eq_nil_iff]
  simp only [decide_eq_true_eq, ne_eq]

/-- **Numbering settles every rule**, and numbers the lines that the active ones carry. -/
theorem settles_number {rules : List Rule} {outcomes : List RuleOutcome}
    (h : List.Forall₂ RuleOutcome.About rules outcomes) (last : UInt64) :
    List.Forall₂ Rule.SettledAs rules (number last outcomes).1 ∧
      Rule.LinesOf (number last outcomes).1 (number last outcomes).2 := by
  induction h generalizing last with
  | nil => exact ⟨.nil, .nil⟩
  | cons ho _ ih =>
    cases ho with
    | failed reason =>
      obtain ⟨hrules, hlines⟩ := ih last
      exact ⟨.cons (.failed reason) hrules, .skip (fun hf => by cases hf) hlines⟩
    | @resolved sources destinations hs hd =>
      rename_i r rules outcomes _
      obtain ⟨hrules, hlines⟩ :=
        ih (last + UInt64.ofNat (r.compile sources destinations last).length)
      have hc := r.carries_activate hs hd last
      exact ⟨.cons (.active hc) hrules, .active hc hlines⟩

/-- What a resolution makes of the rules of a bundle. -/
structure Settles (denyRuleId : String) (offset : UInt64) (rules : List Rule) (r : Resolution) :
    Prop where
  rules : List.Forall₂ Rule.SettledAs rules r.rules
  compiled : ∃ lines, Rule.LinesOf r.rules lines ∧
    r.compiled = if lines = [] then [.denyAll denyRuleId (offset + 1)] else lines

theorem settles_ofOutcomes {rules : List Rule} {outcomes : List RuleOutcome}
    (h : List.Forall₂ RuleOutcome.About rules outcomes) (denyRuleId : String) (offset : UInt64) :
    Settles denyRuleId offset rules (ofOutcomes denyRuleId offset outcomes) :=
  ⟨(settles_number h offset).1, (number offset outcomes).2, (settles_number h offset).2, rfl⟩

end Resolution

/-! ## Compilers -/

namespace Compiler

variable {σ : Type} (c : Compiler σ)

/-- An object that is found for an id has that id. -/
theorem id_of_objectFor? {objects : List FlowObject} {id : String} {o : FlowObject}
    (h : objectFor? objects id = some o) : o.id = id := by
  simpa using List.find?_some h

theorem objectFor?_eq_none_iff {objects : List FlowObject} {id : String} :
    objectFor? objects id = none ↔ id ∉ objects.map (·.id) := by
  simp [objectFor?]

theorem mem_of_objectFor? {objects : List FlowObject} {id : String} {o : FlowObject}
    (h : objectFor? objects id = some o) : id ∈ objects.map (·.id) := by
  by_contra hid
  rw [objectFor?_eq_none_iff.2 hid] at h
  cases h

/-- An object is resolved exactly if it has an address. -/
theorem isResolved_iff {o : ResolvedObject} : o.isResolved = true ↔ o.addresses ≠ [] := by
  rw [ResolvedObject.isResolved, Bool.not_eq_true', List.isEmpty_eq_false_iff]

/-- The outcome of a rule whose objects were resolved is about that rule. -/
theorem about_outcome (rule : Rule) (source destination : ResolvedObject) :
    RuleOutcome.About rule (outcome rule source destination) := by
  unfold outcome
  by_cases hs : source.isResolved = true
  · by_cases hd : destination.isResolved = true
    · rw [hs, hd]
      exact .resolved (isResolved_iff.1 hs) (isResolved_iff.1 hd)
    · rw [hs, (Bool.not_eq_true _).mp hd]
      exact .failed _
  · rw [(Bool.not_eq_true _).mp hs]
    exact .failed _

/-- What resolving a rule comes to is about that rule. -/
theorem about_of_perform {bundle : Bundle} {objects : List FlowObject} {rule : Rule}
    {o : RuleOutcome} {s t : σ}
    (h : (c.resolveRule bundle objects rule).perform s = (.ok o, t)) :
    RuleOutcome.About rule o := by
  unfold resolveRule at h
  split at h
  · obtain ⟨source, u, -, h⟩ := Action.perform_bind_ok_iff.1 h
    obtain ⟨destination, v, -, h⟩ := Action.perform_bind_ok_iff.1 h
    cases h
    exact about_outcome rule source destination
  · cases h
    exact .failed _

/-- **A resolution that succeeds settles its rules.** -/
theorem settles_of_perform {bundle : Bundle} {rules : List Rule} {objects : List FlowObject}
    {offset : UInt64} {r : Resolution} {s t : σ}
    (h : (c.resolveRules bundle rules objects offset).perform s = (.ok r, t)) :
    Resolution.Settles c.denyRuleId offset rules r := by
  obtain ⟨outcomes, u, houtcomes, h⟩ := Action.perform_bind_ok_iff.1 h
  cases h
  rw [Action.perform_mapError_ok_iff] at houtcomes
  have hall : List.Forall₂ RuleOutcome.About rules outcomes := by
    refine Action.forall₂_of_perform_mapM (P := fun _ => True) ?_ trivial houtcomes
    intro rule o s t _ ho
    exact ⟨c.about_of_perform ho, trivial⟩
  exact Resolution.settles_ofOutcomes hall c.denyRuleId offset

end Compiler

/-! ## Resolving twice -/

namespace Compiler

section Alike

variable {σ τ : Type} {R : σ → τ → Prop} {c : Compiler σ} {c' : Compiler τ}

/-- Resolving a rule is alike wherever the inventories answer alike for its bundle. -/
theorem alike_resolveRule {bundle : Bundle} (hchain : c.chain = c'.chain)
    (hsource : c.source.AlikeFor R (some bundle) c'.source) (objects : List FlowObject)
    (rule : Rule) :
    Action.Alike R (c.resolveRule bundle objects rule) (c'.resolveRule bundle objects rule) := by
  unfold resolveRule
  rw [hchain]
  split
  · refine Action.alike_bind (Resolver.alike_resolveBy hsource _ _) fun source => ?_
    refine Action.alike_bind (Resolver.alike_resolveBy hsource _ _) fun destination => ?_
    exact Action.alike_pure _
  · exact Action.alike_pure _

/-- **Resolving the rules of a bundle** is alike wherever the inventories answer alike for it. -/
theorem alike_resolveRules {bundle : Bundle} (hchain : c.chain = c'.chain)
    (hsource : c.source.AlikeFor R (some bundle) c'.source) (hdeny : c.denyRuleId = c'.denyRuleId)
    (rules : List Rule) (objects : List FlowObject) (offset : UInt64) :
    Action.Alike R (c.resolveRules bundle rules objects offset)
      (c'.resolveRules bundle rules objects offset) := by
  unfold Compiler.resolveRules
  rw [hdeny]
  refine Action.alike_bind ?_ fun outcomes => Action.alike_pure _
  exact Action.alike_mapError batchError
    (Action.alike_mapM fun rule _ => alike_resolveRule hchain hsource objects rule)

/-- Two compilers have the same chain of resolvers, and inventories that answer alike. -/
structure Alike (R : σ → τ → Prop) (c : Compiler σ) (c' : Compiler τ) : Prop where
  chain : c.chain = c'.chain
  source : c.source.Alike R c'.source
  denyRuleId : c.denyRuleId = c'.denyRuleId

/-- A compiler compiles as itself does. -/
theorem alike_refl (c : Compiler σ) : c.Alike Eq c :=
  ⟨rfl, c.source.alike_refl, rfl⟩

theorem Alike.resolveRules (h : c.Alike R c') (bundle : Bundle) (rules : List Rule)
    (objects : List FlowObject) (offset : UInt64) :
    Action.Alike R (c.resolveRules bundle rules objects offset)
      (c'.resolveRules bundle rules objects offset) :=
  alike_resolveRules h.chain (h.source.alikeFor _) h.denyRuleId rules objects offset

end Alike

section Steady

variable {σ : Type} {c : Compiler σ} {P : σ → Prop} {bundle : Bundle}

/-- With an inventory that always answers alike, a rule always comes to the same. -/
theorem steady_resolveRule (h : c.source.SteadyIn P (some bundle)) (objects : List FlowObject)
    (rule : Rule) : Action.Steady P (c.resolveRule bundle objects rule) :=
  alike_resolveRule rfl h objects rule

/-- With an inventory that always answers alike, all rules of a bundle do. -/
theorem steady_resolveRules (h : c.source.SteadyIn P (some bundle)) (rules : List Rule)
    (objects : List FlowObject) (offset : UInt64) :
    Action.Steady P (c.resolveRules bundle rules objects offset) :=
  alike_resolveRules rfl h rfl rules objects offset

end Steady

end Compiler

end Firewall
