/-
# Lines by position

The rules of a bundle are numbered in one pass: a rule that failed takes no number, and any other
takes one for each pair of its addresses.  What comes out can be told without the pass.  A rule with
one address on either side is a *flow*; the flows of the rules that resolved, one after the other,
are numbered by their positions, and a rule carries the lines at the positions of its own flows.
Numbers are counted in 64 bits; a position that fits in them has the number that it has in `ℕ`.

* `Compiler.Finds`, `FindsAll` : what resolving rules comes to, from one world to the next;
* `sidsAfter` : the numbers after a given one, and what they are in `ℕ`;
* `Flow`, `RuleOutcome.flows` : rules with one address on either side;
* `Flow.numbered` : the lines of flows, numbered by position;
* `Resolution.lines_number`, `rules_number` : the pass gives these lines, and each rule its own;
* `Resolution.Numbers` : lines and rules told by position;
* `Compiler.resolveRules_lines` : the lines of a resolution that succeeds.
-/
import Firewall.Proofs.Resolution

namespace Firewall

/-! ## What resolving rules comes to -/

namespace Compiler

variable {σ : Type} (c : Compiler σ) (bundle : Bundle) (objects : List FlowObject)

/-- What resolving a rule comes to, from one world to the next.  Nothing is looked up for a rule that
names an unknown object; otherwise the source is looked up first, and the destination from the world
that this leaves. -/
inductive Finds (rule : Rule) : σ → RuleOutcome → σ → Prop
  | unknown {s : σ}
      (h : objectFor? objects rule.source = none ∨ objectFor? objects rule.destination = none) :
      Finds rule s (.failed (rule.fail unresolvedReference)) s
  | noSource {s t u : σ} {source destination : FlowObject} {origin target : ResolvedObject}
      (hsource : objectFor? objects rule.source = some source)
      (hdestination : objectFor? objects rule.destination = some destination)
      (horigin : (Resolver.resolveBy c.chain c.source (some bundle) source).perform s =
        (.ok origin, t))
      (htarget : (Resolver.resolveBy c.chain c.source (some bundle) destination).perform t =
        (.ok target, u))
      (hnone : origin.addresses = []) :
      Finds rule s (.failed (rule.fail
        ("Can not resolve source object to address " ++ origin.object.id))) u
  | noDestination {s t u : σ} {source destination : FlowObject} {origin target : ResolvedObject}
      (hsource : objectFor? objects rule.source = some source)
      (hdestination : objectFor? objects rule.destination = some destination)
      (horigin : (Resolver.resolveBy c.chain c.source (some bundle) source).perform s =
        (.ok origin, t))
      (htarget : (Resolver.resolveBy c.chain c.source (some bundle) destination).perform t =
        (.ok target, u))
      (hsome : origin.addresses ≠ []) (hnone : target.addresses = []) :
      Finds rule s (.failed (rule.fail
        ("Can not resolve destination object to address " ++ target.object.id))) u
  | resolved {s t u : σ} {source destination : FlowObject} {origin target : ResolvedObject}
      (hsource : objectFor? objects rule.source = some source)
      (hdestination : objectFor? objects rule.destination = some destination)
      (horigin : (Resolver.resolveBy c.chain c.source (some bundle) source).perform s =
        (.ok origin, t))
      (htarget : (Resolver.resolveBy c.chain c.source (some bundle) destination).perform t =
        (.ok target, u))
      (hsome : origin.addresses ≠ []) (hsome' : target.addresses ≠ []) :
      Finds rule s (.resolved rule origin.addresses target.addresses) u

/-- What resolving rules comes to, one after the other. -/
inductive FindsAll : σ → List Rule → List RuleOutcome → σ → Prop
  | nil (s : σ) : FindsAll s [] [] s
  | cons {s t u : σ} {rule : Rule} {rules : List Rule} {o : RuleOutcome}
      {outcomes : List RuleOutcome} (h : c.Finds bundle objects rule s o t)
      (hrest : FindsAll t rules outcomes u) : FindsAll s (rule :: rules) (o :: outcomes) u

variable {c bundle objects}

/-- An object without addresses is not resolved. -/
theorem isResolved_eq_false {o : ResolvedObject} (h : o.addresses = []) : o.isResolved = false := by
  rw [← Bool.not_eq_true, isResolved_iff, h]
  exact fun hne => hne rfl

/-- **A rule that is resolved** has come to what is found for it. -/
theorem finds_of_perform {rule : Rule} {o : RuleOutcome} {s t : σ}
    (h : (c.resolveRule bundle objects rule).perform s = (.ok o, t)) :
    c.Finds bundle objects rule s o t := by
  unfold resolveRule at h
  split at h
  · next source destination hsource hdestination =>
    obtain ⟨origin, u, horigin, h⟩ := Action.perform_bind_ok_iff.1 h
    obtain ⟨target, v, htarget, h⟩ := Action.perform_bind_ok_iff.1 h
    cases h
    by_cases hs : origin.addresses = []
    · have houtcome : outcome rule origin target = .failed (rule.fail
          ("Can not resolve source object to address " ++ origin.object.id)) := by
        rw [outcome, isResolved_eq_false hs]
        rfl
      rw [houtcome]
      exact .noSource hsource hdestination horigin htarget hs
    · by_cases hd : target.addresses = []
      · have houtcome : outcome rule origin target = .failed (rule.fail
            ("Can not resolve destination object to address " ++ target.object.id)) := by
          rw [outcome, isResolved_iff.2 hs, isResolved_eq_false hd]
          rfl
        rw [houtcome]
        exact .noDestination hsource hdestination horigin htarget hs hd
      · have houtcome : outcome rule origin target =
            .resolved rule origin.addresses target.addresses := by
          rw [outcome, isResolved_iff.2 hs, isResolved_iff.2 hd]
          rfl
        rw [houtcome]
        exact .resolved hsource hdestination horigin htarget hs hd
  · next hunknown =>
    cases h
    refine .unknown ?_
    -- if both objects were known, the case before would have applied
    rcases hs : objectFor? objects rule.source with - | source
    · exact Or.inl rfl
    · rcases hd : objectFor? objects rule.destination with - | destination
      · exact Or.inr rfl
      · exact absurd hd (hunknown source destination hs)

/-- Rules that are resolved have come to what is found for them. -/
theorem findsAll_of_perform {rules : List Rule} {outcomes : List RuleOutcome} {s t : σ}
    (h : (rules.mapM (c.resolveRule bundle objects)).perform s = (.ok outcomes, t)) :
    c.FindsAll bundle objects s rules outcomes t := by
  induction rules generalizing outcomes s with
  | nil =>
    cases h
    exact .nil t
  | cons rule rules ih =>
    obtain ⟨o, u, rest, ho, hrest, rfl⟩ := Action.perform_mapM_ok_iff.1 h
    exact .cons (finds_of_perform ho) (ih hrest)

/-- What is found for a rule is about that rule. -/
theorem Finds.about {rule : Rule} {o : RuleOutcome} {s t : σ}
    (h : c.Finds bundle objects rule s o t) : RuleOutcome.About rule o := by
  cases h with
  | unknown _ => exact .failed _
  | noSource _ _ _ _ _ => exact .failed _
  | noDestination _ _ _ _ _ _ => exact .failed _
  | resolved _ _ _ _ hs hd => exact .resolved hs hd

theorem FindsAll.about {rules : List Rule} {outcomes : List RuleOutcome} {s t : σ}
    (h : c.FindsAll bundle objects s rules outcomes t) :
    List.Forall₂ RuleOutcome.About rules outcomes := by
  induction h with
  | nil => exact .nil
  | cons h _ ih => exact .cons h.about ih

end Compiler

/-! ## Sids -/

/-- A sid that does not pass 64 bits is the sum in `ℕ`. -/
theorem toNat_sid {last : UInt64} {k : Nat} (h : last.toNat + 1 + k < UInt64.size) :
    (last + 1 + UInt64.ofNat k).toNat = last.toNat + 1 + k := by
  have hsize : UInt64.size = 2 ^ 64 := rfl
  rw [UInt64.toNat_add, UInt64.toNat_add, UInt64.toNat_ofNat', UInt64.toNat_one]
  omega

/-- The `n` sids after `last`, in order. -/
def sidsAfter (last : UInt64) (n : Nat) : List UInt64 :=
  (List.range n).map fun k => last + 1 + UInt64.ofNat k

/-- **Sids that do not pass 64 bits** are consecutive in `ℕ`. -/
theorem map_toNat_sidsAfter {last : UInt64} {n : Nat} (h : last.toNat + n < UInt64.size) :
    (sidsAfter last n).map UInt64.toNat = List.range' (last.toNat + 1) n := by
  unfold sidsAfter
  apply List.ext_getElem
  · simp
  · intro k h₁ h₂
    have hk : k < n := by simpa using h₂
    simp only [List.getElem_map, List.getElem_range, List.getElem_range', Nat.one_mul]
    exact toNat_sid (by omega)

/-! ## Flows -/

/-- A rule with one address on either side. -/
structure Flow where
  rule : Rule
  source : String
  destination : String

namespace Flow

/-- The text of the line for a flow under a number. -/
def text (f : Flow) (sid : UInt64) : String :=
  f.rule.action ++ " " ++ f.rule.protocol ++ " " ++ f.source ++ " " ++ f.rule.sourcePort.text ++
    " ->  " ++ f.destination ++ " " ++ f.rule.destinationPort.text ++
    " (msg: \"" ++ f.rule.id ++ "\"; sid: " ++ Nat.repr sid.toNat ++ ";" ++
    String.join (f.rule.options.map fun o => " " ++ o.key ++ ": " ++ o.value ++ ";") ++ ")"

/-- The line for a flow under a number. -/
def line (f : Flow) (sid : UInt64) : CompiledRule := ⟨f.rule.id, sid, f.text sid⟩

/-- The lines for flows, numbered after `last` by their positions. -/
def numbered (last : UInt64) (flows : List Flow) : List CompiledRule :=
  flows.mapIdx fun k f => f.line (last + 1 + UInt64.ofNat k)

theorem length_numbered (last : UInt64) (flows : List Flow) :
    (numbered last flows).length = flows.length :=
  List.length_mapIdx

/-- The numbers of later flows go on from those of the flows before them. -/
theorem numbered_append (last : UInt64) (fs gs : List Flow) :
    numbered last (fs ++ gs) =
      numbered last fs ++ numbered (last + UInt64.ofNat fs.length) gs := by
  unfold numbered
  rw [List.mapIdx_append]
  congr 2
  funext k f
  have hsid : last + 1 + UInt64.ofNat (k + fs.length) =
      last + UInt64.ofNat fs.length + 1 + UInt64.ofNat k := by
    rw [UInt64.ofNat_add]
    ac_rfl
  rw [hsid]

/-- Lines that are numbered carry consecutive numbers. -/
theorem map_sid_numbered (last : UInt64) (flows : List Flow) :
    (numbered last flows).map (·.sid) = sidsAfter last flows.length := by
  unfold numbered sidsAfter
  apply List.ext_getElem
  · simp
  · intro k h₁ h₂
    simp [line]

end Flow

namespace RuleOutcome

/-- The flows of a rule, source by source and for each destination by destination; none if it
failed. -/
def flows : RuleOutcome → List Flow
  | failed _ => []
  | resolved rule sources destinations =>
    sources.flatMap fun source => destinations.map fun destination => ⟨rule, source, destination⟩

/-- The rule as it is after the pass that gave it some lines; a failed rule takes none. -/
def ruleWith : RuleOutcome → List CompiledRule → Rule
  | failed rule, _ => rule
  | resolved rule _ _, lines => rule.activate (CompiledRule.joinLines lines)

/-- The lines of a rule are those of its flows. -/
theorem compile_eq (rule : Rule) (sources destinations : List String) (last : UInt64) :
    rule.compile sources destinations last =
      Flow.numbered last (resolved rule sources destinations).flows := by
  have hflows : (resolved rule sources destinations).flows =
      (Rule.addressPairs sources destinations).map fun p => ⟨rule, p.1, p.2⟩ := by
    rw [flows, Rule.addressPairs, List.map_flatMap]
    simp only [List.map_map, Function.comp_def]
  rw [hflows, Flow.numbered, Rule.compile]
  apply List.ext_getElem
  · simp
  · intro k h₁ h₂
    simp only [List.getElem_mapIdx, List.getElem_map]
    rfl

end RuleOutcome

namespace Resolution

/-- **The lines of the pass** are the numbered flows of all rules that resolved. -/
theorem lines_number (last : UInt64) (outcomes : List RuleOutcome) :
    (number last outcomes).2 = Flow.numbered last (outcomes.flatMap RuleOutcome.flows) := by
  induction outcomes generalizing last with
  | nil => rfl
  | cons o outcomes ih =>
    rw [List.flatMap_cons]
    cases o with
    | failed rule => exact ih last
    | resolved rule sources destinations =>
      rw [Flow.numbered_append, ← RuleOutcome.compile_eq, ← ih]
      simp only [number]
      rw [RuleOutcome.compile_eq, Flow.length_numbered]

/-- **A rule is given the lines of its own flows**, numbered after those of the rules before it. -/
theorem rules_number (last : UInt64) (earlier later : List RuleOutcome) (o : RuleOutcome) :
    (number last (earlier ++ o :: later)).1[earlier.length]? =
      some (o.ruleWith
        (Flow.numbered (last + UInt64.ofNat (earlier.flatMap RuleOutcome.flows).length)
          o.flows)) := by
  induction earlier generalizing last with
  | nil =>
    cases o with
    | failed rule => rfl
    | resolved rule sources destinations =>
      have hzero : last + UInt64.ofNat 0 = last := UInt64.add_zero last
      simp only [List.nil_append, List.flatMap_nil, List.length_nil, number, hzero,
        List.getElem?_cons_zero, RuleOutcome.compile_eq]
      rfl
  | cons o' earlier ih =>
    cases o' with
    | failed rule => exact ih last
    | resolved rule sources destinations =>
      simp only [List.cons_append, number, List.length_cons, List.getElem?_cons_succ]
      rw [ih, RuleOutcome.compile_eq, Flow.length_numbered, List.flatMap_cons, List.length_append,
        UInt64.ofNat_add, UInt64.add_assoc]

/-! ## The lines of a resolution -/

/-- The lines and rules of a resolution, told by position from the outcomes of its rules. -/
structure Numbers (offset : UInt64) (outcomes : List RuleOutcome) (r : Resolution) : Prop where
  /-- The line at position `k` is that of the flow there, under the number `offset + 1 + k`. -/
  compiled : r.compiled = (outcomes.flatMap RuleOutcome.flows).mapIdx fun k f =>
    ⟨f.rule.id, offset + 1 + UInt64.ofNat k, f.text (offset + 1 + UInt64.ofNat k)⟩
  /-- This is the sum in `ℕ`, unless it passes 64 bits. -/
  fits : ∀ k l, r.compiled[k]? = some l → offset.toNat + 1 + k < UInt64.size →
    l.sid.toNat = offset.toNat + 1 + k
  length : r.rules.length = outcomes.length
  /-- A rule that resolved carries the lines at the positions of its own flows. -/
  own : ∀ earlier o later, outcomes = earlier ++ o :: later →
    r.rules[earlier.length]? = some (o.ruleWith
      ((r.compiled.drop (earlier.flatMap RuleOutcome.flows).length).take o.flows.length))

theorem numbers_ofOutcomes (denyRuleId : String) {offset : UInt64} {outcomes : List RuleOutcome}
    (h : (number offset outcomes).2 ≠ []) :
    (ofOutcomes denyRuleId offset outcomes).Numbers offset outcomes := by
  have hcompiled : (ofOutcomes denyRuleId offset outcomes).compiled =
      Flow.numbered offset (outcomes.flatMap RuleOutcome.flows) :=
    (if_neg h).trans (lines_number offset outcomes)
  refine ⟨hcompiled, fun k l hl hk => ?_, length_number offset outcomes, ?_⟩
  · rw [hcompiled, Flow.numbered, List.getElem?_mapIdx, Option.map_eq_some_iff] at hl
    obtain ⟨f, -, rfl⟩ := hl
    exact toNat_sid hk
  rintro earlier o later rfl
  have hslice : ((Flow.numbered offset
      ((earlier ++ o :: later).flatMap RuleOutcome.flows)).drop
        (earlier.flatMap RuleOutcome.flows).length).take o.flows.length =
      Flow.numbered (offset + UInt64.ofNat (earlier.flatMap RuleOutcome.flows).length) o.flows := by
    rw [List.flatMap_append, List.flatMap_cons, Flow.numbered_append, Flow.numbered_append,
      List.drop_left' (Flow.length_numbered _ _), List.take_left' (Flow.length_numbered _ _)]
  rw [hcompiled, hslice]
  exact rules_number offset earlier later o

end Resolution

namespace Compiler

variable {σ : Type} (c : Compiler σ)

/-- A resolution that succeeds is made from what is found for its rules. -/
theorem ofOutcomes_of_perform {bundle : Bundle} {rules : List Rule} {objects : List FlowObject}
    {offset : UInt64} {r : Resolution} {s t : σ}
    (h : (c.resolveRules bundle rules objects offset).perform s = (.ok r, t)) :
    ∃ outcomes, c.FindsAll bundle objects s rules outcomes t ∧
      r = .ofOutcomes c.denyRuleId offset outcomes := by
  obtain ⟨outcomes, u, houtcomes, h⟩ := Action.perform_bind_ok_iff.1 h
  cases h
  rw [Action.perform_mapError_ok_iff] at houtcomes
  exact ⟨outcomes, findsAll_of_perform houtcomes, rfl⟩

/-- **The lines of a resolution**, when at least one rule is active.  They are the lines of the flows
of the rules that resolved, in the order of the rules; the line at position `k` has the number
`offset + 1 + k`, in 64 bits and, where it fits in them, in `ℕ`.  Every rule keeps its place, and an
active one carries the lines at the positions of its own flows. -/
theorem resolveRules_lines {bundle : Bundle} {rules : List Rule} {objects : List FlowObject}
    {offset : UInt64} {r : Resolution} {s t : σ}
    (h : (c.resolveRules bundle rules objects offset).perform s = (.ok r, t))
    (hactive : ∃ rule ∈ r.rules, rule.status = .active) :
    ∃ outcomes, c.FindsAll bundle objects s rules outcomes t ∧ r.Numbers offset outcomes := by
  obtain ⟨outcomes, hfinds, rfl⟩ := c.ofOutcomes_of_perform h
  refine ⟨outcomes, hfinds, Resolution.numbers_ofOutcomes c.denyRuleId fun hnil => ?_⟩
  -- without any line no rule would be active
  obtain ⟨rule, hrule, hstatus⟩ := hactive
  have hnone := (Resolution.settles_number hfinds.about offset).2.eq_nil_iff.1 hnil
  rw [Rule.activeOf, List.filter_eq_nil_iff] at hnone
  exact hnone rule hrule (by simpa using hstatus)

end Compiler

/-! ## A security group and an address -/

namespace Sample

/-- A network interface in the inventory. -/
def interface (address : String) : Json :=
  .object [("configuration", .object [("privateIpAddress", .string address)])]

/-- A compiler whose inventory answers every query by three interfaces, two of one address. -/
def compiler : Compiler Unit where
  chain := Resolver.standard
  source := ⟨fun _ _ => pure (["10.0.0.1", "10.0.0.2", "10.0.0.1"].map interface), "org"⟩
  denyRuleId := defaultDenyRuleId

/-- A security group, and a literal address. -/
def endpoints : List FlowObject :=
  [⟨"group", .arn "arn:aws:ec2:eu-west-1:1:security-group/sg-1"⟩, ⟨"host", .address "10.1.0.9"⟩]

/-- A rule from the group to the host, one that names an unknown object, and one back. -/
def mixedRules : List Rule :=
  [⟨"a", "b1", "pass", "tcp", "group", .any, "host", .single "443", .pending, [],
      some [⟨"flow", "to_server"⟩], 0, none⟩,
    ⟨"b", "b1", "pass", "tcp", "nobody", .any, "host", .any, .pending, [], none, 0, none⟩,
    ⟨"c", "b1", "drop", "udp", "host", .any, "group", .any, .pending, [], none, 0, none⟩]

end Sample

/-- Of three rules, two resolve, to three lines each; the failed one between them takes no number. -/
theorem Compiler.resolveRules_lines_mixed :
    ∃ r, (Sample.compiler.resolveRules (.new "b1" "g1" "") Sample.mixedRules Sample.endpoints
        7).perform () = (.ok r, ()) ∧
      (∃ rule ∈ r.rules, rule.status = .active) ∧
      r.compiled.map (fun l => (l.ruleId, l.sid)) =
        [("a", 8), ("a", 9), ("a", 10), ("c", 11), ("c", 12), ("c", 13)] ∧
      ∃ outcomes, Sample.compiler.FindsAll (.new "b1" "g1" "") Sample.endpoints ()
        Sample.mixedRules outcomes () ∧ r.Numbers 7 outcomes := by
  have hlines : ((Sample.compiler.resolveRules (.new "b1" "g1" "") Sample.mixedRules
      Sample.endpoints 7).perform ()).1.toOption.map (fun r =>
        (r.compiled.map (fun l => (l.ruleId, l.sid)), r.rules.map (·.status))) =
      some ([("a", 8), ("a", 9), ("a", 10), ("c", 11), ("c", 12), ("c", 13)],
        [.active, .failed, .active]) := by
    decide +kernel
  rcases h : (Sample.compiler.resolveRules (.new "b1" "g1" "") Sample.mixedRules
      Sample.endpoints 7).perform () with ⟨e | r, ⟨⟩⟩
  · rw [h] at hlines
    cases hlines
  · rw [h] at hlines
    obtain ⟨hsids, hstatus⟩ := Prod.mk.inj (Option.some.inj hlines)
    have hactive : ∃ rule ∈ r.rules, rule.status = .active := by
      have hmem : RuleStatus.active ∈ r.rules.map (·.status) := by
        rw [hstatus]
        exact List.mem_cons_self
      obtain ⟨rule, hrule, hactive⟩ := List.mem_map.1 hmem
      exact ⟨rule, hrule, hactive⟩
    exact ⟨r, rfl, hactive, hsids, Sample.compiler.resolveRules_lines h hactive⟩

end Firewall
