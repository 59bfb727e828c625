/-
# Failures of a resolution

A resolution fails exactly if some rule breaks it: both objects of the rule are known, and looking
up one of them ends in an error.  The first such rule counts, and its source before its destination.
A rule that names an unknown object breaks nothing, since nothing is looked up for it.

* `Compiler.Known` : rules that name known objects only;
* `Compiler.Breaks` : the error of a rule that breaks a resolution;
* `Error.Reported` : how this error is told;
* `Compiler.perform_resolveRules_error_iff` : a resolution fails at the first rule that breaks it;
* `Compiler.perform_resolveRules_filter_known_error_iff` : rules that name unknown objects make no
  difference;
* `Compiler.exists_error_iff_of_steady` : whether a resolution by an inventory that always answers
  alike fails;
* `Compiler.resolveRules_failures` : when a resolution fails, and how.
-/
import Firewall.Proofs.Resolution

namespace Firewall

/-! ## How errors are told -/

/-- How the error of a rule is told for its whole bundle: that nobody takes an object, and that a
remote party failed, are told as they are; of any other error its text is told, as a failure of a
remote party. -/
inductive Error.Reported : Error → Error → Prop
  | noResolver (objectId objectType : String) :
      Reported (.noResolver objectId objectType) (.noResolver objectId objectType)
  | underlyingService (reason : String) :
      Reported (.underlyingService reason) (.underlyingService reason)
  | other {cause : Error} (hobject : ∀ id type, cause ≠ .noResolver id type)
      (hservice : ∀ reason, cause ≠ .underlyingService reason) :
      Reported cause (.underlyingService cause.message)

theorem Error.reported_iff {cause e : Error} :
    cause.Reported e ↔ Compiler.batchError cause = e := by
  constructor
  · intro h
    cases h with
    | noResolver id type => rfl
    | underlyingService reason => rfl
    | other hobject hservice =>
      cases cause with
      | noResolver id type => exact absurd rfl (hobject id type)
      | underlyingService reason => exact absurd rfl (hservice reason)
      | _ => rfl
  · rintro rfl
    cases cause with
    | noResolver id type => exact .noResolver id type
    | underlyingService reason => exact .underlyingService reason
    | _ => exact .other (fun _ _ h => by cases h) fun _ h => by cases h

namespace Compiler

variable {σ : Type} (c : Compiler σ) (bundle : Bundle) (objects : List FlowObject)

/-! ## Rules that break a resolution -/

/-- Both objects that a rule names are known. -/
def Known (rule : Rule) : Prop :=
  rule.source ∈ objects.map (·.id) ∧ rule.destination ∈ objects.map (·.id)

instance (rule : Rule) : Decidable (Known objects rule) :=
  inferInstanceAs (Decidable (_ ∧ _))

/-- A rule breaks a resolution: both of its objects are known, and looking up the source ends in an
error, or else looking up the destination does, whether the source has addresses or not. -/
inductive Breaks (rule : Rule) : σ → Error → σ → Prop
  | source {s t : σ} {source destination : FlowObject} {e : Error}
      (hsource : objectFor? objects rule.source = some source)
      (hdestination : objectFor? objects rule.destination = some destination)
      (horigin : (Resolver.resolveBy c.chain c.source (some bundle) source).perform s =
        (.error e, t)) :
      Breaks rule s e t
  | destination {s t u : σ} {source destination : FlowObject} {origin : ResolvedObject} {e : Error}
      (hsource : objectFor? objects rule.source = some source)
      (hdestination : objectFor? objects rule.destination = some destination)
      (horigin : (Resolver.resolveBy c.chain c.source (some bundle) source).perform s =
        (.ok origin, t))
      (htarget : (Resolver.resolveBy c.chain c.source (some bundle) destination).perform t =
        (.error e, u)) :
      Breaks rule s e u

variable {c bundle objects}

/-- A rule that cannot be resolved breaks the resolution. -/
theorem perform_resolveRule_error_iff {rule : Rule} {s t : σ} {e : Error} :
    (c.resolveRule bundle objects rule).perform s = (.error e, t) ↔
      c.Breaks bundle objects rule s e t := by
  constructor
  · intro h
    unfold resolveRule at h
    split at h
    · next source destination hsource hdestination =>
      rcases Action.perform_bind_error_iff.1 h with horigin | ⟨origin, u, horigin, h⟩
      · exact .source hsource hdestination horigin
      · rcases Action.perform_bind_error_iff.1 h with htarget | ⟨target, v, -, h⟩
        · exact .destination hsource hdestination horigin htarget
        · cases h
    · cases h
  · intro h
    unfold resolveRule
    cases h with
    | source hsource hdestination horigin =>
      simp only [hsource, hdestination]
      exact Action.perform_bind_of_error horigin _
    | destination hsource hdestination horigin htarget =>
      simp only [hsource, hdestination]
      rw [Action.perform_bind_of_ok horigin]
      exact Action.perform_bind_of_error htarget _

/-- For a rule that names an unknown object, nothing is looked up. -/
theorem perform_resolveRule_of_not_known {rule : Rule} (h : ¬ Known objects rule) (s : σ) :
    (c.resolveRule bundle objects rule).perform s =
      (.ok (.failed (rule.fail unresolvedReference)), s) := by
  unfold resolveRule
  split
  · next source destination hsource hdestination =>
    exact absurd ⟨mem_of_objectFor? hsource, mem_of_objectFor? hdestination⟩ h
  · rfl

/-! ## The first rule that breaks a resolution -/

/-- A resolution succeeds when all of its rules can be resolved. -/
theorem exists_perform_resolveRules_iff {rules : List Rule} {offset : UInt64} {s t : σ} :
    (∃ r, (c.resolveRules bundle rules objects offset).perform s = (.ok r, t)) ↔
      ∃ outcomes, (rules.mapM (c.resolveRule bundle objects)).perform s = (.ok outcomes, t) := by
  unfold resolveRules
  constructor
  · rintro ⟨r, h⟩
    obtain ⟨outcomes, u, houtcomes, h⟩ := Action.perform_bind_ok_iff.1 h
    cases h
    exact ⟨outcomes, Action.perform_mapError_ok_iff.1 houtcomes⟩
  · rintro ⟨outcomes, h⟩
    exact ⟨_, Action.perform_bind_of_ok (Action.perform_mapError_ok_iff.2 h) _⟩

/-- A resolution fails when its rules cannot be resolved, and tells the error for the bundle. -/
theorem perform_resolveRules_error {rules : List Rule} {offset : UInt64} {s t : σ} {e : Error} :
    (c.resolveRules bundle rules objects offset).perform s = (.error e, t) ↔
      ∃ cause, (rules.mapM (c.resolveRule bundle objects)).perform s = (.error cause, t) ∧
        cause.Reported e := by
  unfold resolveRules
  rw [Action.perform_bind_error_iff, Action.perform_mapError_error_iff]
  simp only [Error.reported_iff]
  constructor
  · rintro (h | ⟨outcomes, u, -, h⟩)
    · exact h
    · cases h
  · exact .inl

/-- **A resolution fails at the first rule that breaks it**, and tells its error. -/
theorem perform_resolveRules_error_iff {rules : List Rule} {offset : UInt64} {s t : σ} {e : Error} :
    (c.resolveRules bundle rules objects offset).perform s = (.error e, t) ↔
      ∃ earlier rule later r u cause, rules = earlier ++ rule :: later ∧
        (c.resolveRules bundle earlier objects offset).perform s = (.ok r, u) ∧
        c.Breaks bundle objects rule u cause t ∧ cause.Reported e := by
  rw [perform_resolveRules_error]
  constructor
  · rintro ⟨cause, h, hreported⟩
    obtain ⟨earlier, rule, later, outcomes, u, hrules, hearlier, hrule⟩ :=
      Action.perform_mapM_error_iff.1 h
    have hok : ∃ r, (c.resolveRules bundle earlier objects offset).perform s = (.ok r, u) :=
      exists_perform_resolveRules_iff.2 ⟨outcomes, hearlier⟩
    obtain ⟨r, hr⟩ := hok
    exact ⟨earlier, rule, later, r, u, cause, hrules, hr, perform_resolveRule_error_iff.1 hrule,
      hreported⟩
  · rintro ⟨earlier, rule, later, r, u, cause, hrules, hr, hbreaks, hreported⟩
    obtain ⟨outcomes, hearlier⟩ := exists_perform_resolveRules_iff.1 ⟨r, hr⟩
    exact ⟨cause, Action.perform_mapM_error_iff.2 ⟨earlier, rule, later, outcomes, u, hrules,
      hearlier, perform_resolveRule_error_iff.2 hbreaks⟩, hreported⟩

/-- A resolution fails if the rules in front of it do. -/
theorem perform_resolveRules_append_of_error {earlier : List Rule} {offset : UInt64} {s t : σ}
    {e : Error} (h : (c.resolveRules bundle earlier objects offset).perform s = (.error e, t))
    (later : List Rule) :
    (c.resolveRules bundle (earlier ++ later) objects offset).perform s = (.error e, t) := by
  obtain ⟨cause, hearlier, hreported⟩ := perform_resolveRules_error.1 h
  exact perform_resolveRules_error.2
    ⟨cause, Action.perform_mapM_append_of_error hearlier later, hreported⟩

/-- **A resolution fails exactly if some rule breaks it**, in the world that the resolution of the
rules before this one leaves. -/
theorem exists_error_iff {rules : List Rule} {offset : UInt64} {s : σ} :
    (∃ e t, (c.resolveRules bundle rules objects offset).perform s = (.error e, t)) ↔
      ∃ earlier rule later cause t, rules = earlier ++ rule :: later ∧
        c.Breaks bundle objects rule
          ((c.resolveRules bundle earlier objects offset).perform s).2 cause t := by
  constructor
  · rintro ⟨e, t, h⟩
    obtain ⟨earlier, rule, later, r, u, cause, hrules, hr, hbreaks, -⟩ :=
      perform_resolveRules_error_iff.1 h
    refine ⟨earlier, rule, later, cause, t, hrules, ?_⟩
    rw [hr]
    exact hbreaks
  · rintro ⟨earlier, rule, later, cause, t, rfl, hbreaks⟩
    -- if the rules before this one fail already, the resolution has failed there
    rcases hr : (c.resolveRules bundle earlier objects offset).perform s with ⟨e | r, u⟩
    · exact ⟨e, u, perform_resolveRules_append_of_error hr _⟩
    · rw [hr] at hbreaks
      exact ⟨batchError cause, t, perform_resolveRules_error_iff.2 ⟨earlier, rule, later, r, u,
        cause, rfl, hr, hbreaks, Error.reported_iff.2 rfl⟩⟩

/-! ## Rules that name unknown objects -/

/-- A rule that names an unknown object breaks nothing, and leaves the world as it is. -/
theorem perform_mapM_filter_known_error_iff {rules : List Rule} {s t : σ} {cause : Error} :
    ((rules.filter (Known objects ·)).mapM (c.resolveRule bundle objects)).perform s =
        (.error cause, t) ↔
      (rules.mapM (c.resolveRule bundle objects)).perform s = (.error cause, t) := by
  induction rules generalizing s with
  | nil => rfl
  | cons rule rules ih =>
    rw [Action.perform_mapM_cons_error_iff]
    by_cases h : Known objects rule
    · rw [List.filter_cons_of_pos (by simpa using h), Action.perform_mapM_cons_error_iff]
      simp only [ih]
    · rw [List.filter_cons_of_neg (by simpa using h), ih, perform_resolveRule_of_not_known h]
      simp

/-- **Rules that name unknown objects make no difference** to a failure. -/
theorem perform_resolveRules_filter_known_error_iff {rules : List Rule} {offset : UInt64} {s t : σ}
    {e : Error} :
    (c.resolveRules bundle (rules.filter (Known objects ·)) objects offset).perform s =
        (.error e, t) ↔
      (c.resolveRules bundle rules objects offset).perform s = (.error e, t) := by
  rw [perform_resolveRules_error, perform_resolveRules_error]
  simp only [perform_mapM_filter_known_error_iff]

/-! ## Inventories that always answer alike -/

section Steady

variable {P : σ → Prop}

/-- **With an inventory that always answers alike**, a resolution fails exactly if a rule among the
given ones names two known objects, one of which cannot be resolved. -/
theorem exists_error_iff_of_steady (h : c.source.SteadyIn P (some bundle)) {rules : List Rule}
    {offset : UInt64} {s : σ} (hs : P s) :
    (∃ e t, (c.resolveRules bundle rules objects offset).perform s = (.error e, t)) ↔
      ∃ rule ∈ rules, ∃ source destination, objectFor? objects rule.source = some source ∧
        objectFor? objects rule.destination = some destination ∧
        ∃ o ∈ [source, destination], ∃ e t,
          (Resolver.resolveBy c.chain c.source (some bundle) o).perform s = (.error e, t) := by
  have hobject := Resolver.steady_resolveBy h c.chain
  have hworld : ∀ earlier, P ((c.resolveRules bundle earlier objects offset).perform s).2 :=
    fun earlier => (steady_resolveRules h earlier objects offset).world hs rfl
  rw [exists_error_iff]
  constructor
  · rintro ⟨earlier, rule, later, cause, t, rfl, hbreaks⟩
    refine ⟨rule, by simp, ?_⟩
    cases hbreaks with
    | source hsource hdestination horigin =>
      obtain ⟨v, hv, -⟩ := (hobject _).exists_perform (hworld earlier) horigin hs
      exact ⟨_, _, hsource, hdestination, _, List.mem_cons_self, cause, v, hv⟩
    | destination hsource hdestination horigin htarget =>
      have ht := (hobject _).world (hworld earlier) horigin
      obtain ⟨v, hv, -⟩ := (hobject _).exists_perform ht htarget hs
      exact ⟨_, _, hsource, hdestination, _, List.mem_cons_of_mem _ List.mem_cons_self, cause, v,
        hv⟩
  · rintro ⟨rule, hrule, source, destination, hsource, hdestination, o, ho, cause, v, hv⟩
    obtain ⟨earlier, later, rfl⟩ := List.append_of_mem hrule
    -- if the source cannot be resolved, it is the source that breaks the resolution
    rcases horigin : (Resolver.resolveBy c.chain c.source (some bundle) source).perform
        ((c.resolveRules bundle earlier objects offset).perform s).2 with ⟨e | origin, t⟩
    · exact ⟨earlier, rule, later, e, t, rfl, .source hsource hdestination horigin⟩
    · have ht := (hobject source).world (hworld earlier) horigin
      simp only [List.mem_cons, List.not_mem_nil, or_false] at ho
      rcases ho with rfl | rfl
      · obtain ⟨v', hv', -⟩ := (hobject o).exists_perform hs hv (hworld earlier)
        rw [horigin] at hv'
        cases hv'
      · obtain ⟨v', hv', -⟩ := (hobject o).exists_perform hs hv ht
        exact ⟨earlier, rule, later, cause, v', rfl,
          .destination hsource hdestination horigin hv'⟩

end Steady

/-! ## When a resolution fails -/

variable (c bundle objects)

/-- **When a resolution fails, and how.**  It fails exactly if a rule breaks it after all rules
before this one were resolved, and tells the error of that rule.  So it fails exactly if any rule
breaks it, and a rule that names an unknown object may be left out, whatever its other object is.
By an inventory that always answers alike, it fails exactly if a rule names two known objects one of
which cannot be resolved. -/
theorem resolveRules_failures (rules : List Rule) (offset : UInt64) (s : σ) :
    (∀ e t, (c.resolveRules bundle rules objects offset).perform s = (.error e, t) ↔
      ∃ earlier rule later r u cause, rules = earlier ++ rule :: later ∧
        (c.resolveRules bundle earlier objects offset).perform s = (.ok r, u) ∧
        c.Breaks bundle objects rule u cause t ∧ cause.Reported e) ∧
    ((∃ e t, (c.resolveRules bundle rules objects offset).perform s = (.error e, t)) ↔
      ∃ earlier rule later cause t, rules = earlier ++ rule :: later ∧
        c.Breaks bundle objects rule
          ((c.resolveRules bundle earlier objects offset).perform s).2 cause t) ∧
    (∀ e t, (c.resolveRules bundle (rules.filter (Known objects ·)) objects offset).perform s =
        (.error e, t) ↔
      (c.resolveRules bundle rules objects offset).perform s = (.error e, t)) ∧
    ∀ P, c.source.SteadyIn P (some bundle) → P s →
      ((∃ e t, (c.resolveRules bundle rules objects offset).perform s = (.error e, t)) ↔
        ∃ rule ∈ rules, ∃ source destination, objectFor? objects rule.source = some source ∧
          objectFor? objects rule.destination = some destination ∧
          ∃ o ∈ [source, destination], ∃ e t,
            (Resolver.resolveBy c.chain c.source (some bundle) o).perform s = (.error e, t)) := by
  refine ⟨fun e t => perform_resolveRules_error_iff, exists_error_iff,
    fun e t => perform_resolveRules_filter_known_error_iff, ?_⟩
  intro P hsource hs
  exact exists_error_iff_of_steady hsource hs

end Compiler

/-! ## An inventory that cannot be asked -/

namespace Sample

/-- A compiler whose inventory cannot be asked. -/
def cutOff : Compiler Unit where
  chain := Resolver.standard
  source := ⟨fun _ _ => throw (.inventory "down"), "org"⟩
  denyRuleId := defaultDenyRuleId

/-- An object without addresses, one that nobody takes, and a security group. -/
def oddObjects : List FlowObject :=
  [⟨"empty", .tagged []⟩, ⟨"odd", .address "localhost"⟩,
    ⟨"group", .arn "arn:aws:ec2:eu-west-1:1:security-group/sg-1"⟩]

/-- A rule that names an unknown object, and two that break a resolution. -/
def brokenRules : List Rule :=
  [⟨"a", "b1", "pass", "tcp", "odd", .any, "nobody", .any, .pending, [], none, 0, none⟩,
    ⟨"b", "b1", "pass", "tcp", "empty", .any, "group", .any, .pending, [], none, 0, none⟩,
    ⟨"c", "b1", "pass", "tcp", "odd", .any, "empty", .any, .pending, [], none, 0, none⟩]

end Sample

/-- The destination of the second rule is the first object that cannot be resolved. -/
theorem Compiler.resolveRules_failures_cutOff :
    (Sample.cutOff.resolveRules (.new "b1" "g1" "") Sample.brokenRules Sample.oddObjects 0).perform
        () = (.error (.underlyingService "Inventory query error: down"), ()) ∧
      Sample.cutOff.source.SteadyIn (fun _ => True) (some (.new "b1" "g1" "")) ∧
      ∃ rule ∈ Sample.brokenRules, ∃ source destination,
        objectFor? Sample.oddObjects rule.source = some source ∧
        objectFor? Sample.oddObjects rule.destination = some destination ∧
        ∃ o ∈ [source, destination], ∃ e t, (Resolver.resolveBy Sample.cutOff.chain
          Sample.cutOff.source (some (.new "b1" "g1" "")) o).perform () = (.error e, t) := by
  have hperform : (Sample.cutOff.resolveRules (.new "b1" "g1" "") Sample.brokenRules
      Sample.oddObjects 0).perform () =
        (.error (.underlyingService "Inventory query error: down"), ()) := by
    decide +kernel
  have hsteady : Sample.cutOff.source.SteadyIn (fun _ => True) (some (.new "b1" "g1" "")) :=
    fun q s t _ => ⟨rfl, trivial, trivial⟩
  obtain ⟨-, -, -, hfixed⟩ := resolveRules_failures Sample.cutOff (.new "b1" "g1" "")
    Sample.oddObjects Sample.brokenRules 0 ()
  exact ⟨hperform, hsteady, (hfixed _ hsteady trivial).1 ⟨_, _, hperform⟩⟩

end Firewall
