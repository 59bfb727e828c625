/-
# Contents read back

The stored form of bundles, rules and objects is read as what was stored: fields that were left out
are missing when they are read, and an empty list of options is not taken for a missing one.  Two
things limit this.  Documents of functions are kept as they came, so they must be free of
floating-point numbers and leave room for the levels of the store around them; and a timestamp must
be in a year of four digits.

* `Rule.reading_toJson`, `FlowObject.reading_toJson`, `Bundle.reading_toJson` : one entry;
* `Store.Snapshot.IsPlain`, `Store.Snapshot.Shallow` : contents within the limits;
* `Store.Document.decode?_encode` : the text for contents holds these contents;
* `Store.Document.decode?_toJson_iff` : so do both of their texts, exactly if they are not too deep.
-/
import Firewall.Proofs.Json.Ordered
import Firewall.Proofs.Json.Record
import Firewall.Proofs.Timestamp
import Firewall.Store.Document

namespace Firewall

open Json (Draft)

/-! ## Rules -/

theorem RuleStatus.reading_name (levels : Nat) (status : RuleStatus) :
    RuleStatus.reading levels (Draft.ofJson (.string status.name)) = some status := by
  cases status <;> rfl

namespace Port

theorem reading_toJson (levels : Nat) (p : Port) :
    reading (levels + 1) (Draft.ofJson p.toJson) = some p := by
  cases p <;> rfl

theorem isIntegral_toJson (p : Port) : p.toJson.isIntegral = true := by
  cases p <;> rfl

end Port

theorem RuleOption.reading_toJson (levels : Nat) (o : RuleOption) :
    RuleOption.reading (levels + 1) (Draft.ofJson o.toJson) = some o := by
  obtain ⟨r, hr, hkey, hvalue⟩ := Json.Record.ofDraft?_keyValue false levels o.key o.value
  simp [reading, toJson, hr, hkey, hvalue]

namespace Rule

/-- The members of the stored form of a rule; reasons are a member that may be missing. -/
def members (r : Rule) : List (String × Json) :=
  [("id", .string r.id), ("ruleBundleId", .string r.bundleId), ("action", .string r.action),
    ("protocol", .string r.protocol), ("source", .string r.source),
    ("sourcePort", r.sourcePort.toJson), ("destination", .string r.destination),
    ("destinationPort", r.destinationPort.toJson), ("status", .string r.status.name)] ++
  Json.memberOf "failureReasons" Json.ofTexts
    (if r.failureReasons = [] then none else some r.failureReasons) ++
  Json.memberOf "optionFields" (fun os => .array (os.map RuleOption.toJson)) r.optionFields ++
  [("version", Json.ofNat r.version.toNat)] ++
  Json.memberOf "suricataString" .string r.suricata

theorem toJson_eq (r : Rule) : r.toJson = .object r.members := by
  unfold toJson members
  by_cases h : r.failureReasons = []
  · simp only [if_pos h, Json.memberOf]
  · simp only [if_neg h, Json.memberOf]

theorem keys_members_sublist (r : Rule) : (r.members.map (·.1)).Sublist fieldNames := by
  unfold members
  simp only [List.map_append]
  exact ((((List.Sublist.refl _).append (Json.keys_memberOf_sublist _ _ _)).append
    (Json.keys_memberOf_sublist _ _ _)).append (List.Sublist.refl _)).append
    (Json.keys_memberOf_sublist _ _ _)

section Lookup

variable (r : Rule)

theorem lookup_failureReasons : r.members.lookup "failureReasons" =
    (if r.failureReasons = [] then none else some r.failureReasons).map Json.ofTexts := by
  simp [members, List.lookup_cons, List.lookup_append, Json.lookup_memberOf_self,
    Json.lookup_memberOf_of_ne]

theorem lookup_optionFields : r.members.lookup "optionFields" =
    r.optionFields.map fun os => .array (os.map RuleOption.toJson) := by
  simp [members, List.lookup_cons, List.lookup_append, Json.lookup_memberOf_self,
    Json.lookup_memberOf_of_ne]

theorem lookup_version : r.members.lookup "version" = some (Json.ofNat r.version.toNat) := by
  simp [members, List.lookup_cons, List.lookup_append, Json.lookup_memberOf_of_ne]

theorem lookup_suricata : r.members.lookup "suricataString" = r.suricata.map .string := by
  simp [members, List.lookup_cons, List.lookup_append, Json.lookup_memberOf_self,
    Json.lookup_memberOf_of_ne]

end Lookup

/-- **A rule is read as it was stored.** -/
theorem reading_toJson (levels : Nat) (r : Rule) :
    reading (levels + 3) (Draft.ofJson r.toJson) = some r := by
  have hreasons : (Json.Record.of (levels + 2) r.members).fieldOr "failureReasons" []
      (Json.Reading.listOf Json.Reading.text) = some r.failureReasons := by
    -- empty reasons are left out, and are then what the field has by default
    have hlookup := r.lookup_failureReasons
    by_cases h : r.failureReasons = []
    · rw [if_pos h] at hlookup
      rw [Json.Record.fieldOr_of_none hlookup, h]
    · rw [if_neg h] at hlookup
      exact Json.Record.fieldOr_of hlookup (Json.Reading.listOf_text_ofTexts _ _)
  have hoptions : (Json.Record.of (levels + 2) r.members).fieldOr "optionFields" none
      (Json.Reading.nullable (Json.Reading.listOf RuleOption.reading)) = some r.optionFields :=
    Json.Record.fieldOr_of_memberOf r.lookup_optionFields (by simp) fun os _ =>
      Json.Reading.listOf_ofJson fun o _ => o.reading_toJson levels
  have hsuricata : (Json.Record.of (levels + 2) r.members).fieldOr "suricataString" none
      (Json.Reading.nullable Json.Reading.text) = some r.suricata :=
    Json.Record.fieldOr_of_memberOf r.lookup_suricata (by simp) fun _ _ => rfl
  rw [toJson_eq, reading, Json.Record.ofDraft?_ofJson (by decide) r.keys_members_sublist,
    Option.bind_eq_bind, Option.bind_some]
  dsimp only [Option.bind_eq_bind]
  rw [Json.Record.field_of rfl (Json.Reading.text_ofJson _ r.id), Option.bind_some,
    Json.Record.field_of rfl (Json.Reading.text_ofJson _ r.bundleId), Option.bind_some,
    Json.Record.field_of rfl (Json.Reading.text_ofJson _ r.action), Option.bind_some,
    Json.Record.field_of rfl (Json.Reading.text_ofJson _ r.protocol), Option.bind_some,
    Json.Record.field_of rfl (Json.Reading.text_ofJson _ r.source), Option.bind_some,
    Json.Record.field_of rfl (r.sourcePort.reading_toJson _), Option.bind_some,
    Json.Record.field_of rfl (Json.Reading.text_ofJson _ r.destination), Option.bind_some,
    Json.Record.field_of rfl (r.destinationPort.reading_toJson _), Option.bind_some,
    Json.Record.fieldOr_of rfl (RuleStatus.reading_name _ r.status), Option.bind_some,
    hreasons, Option.bind_some, hoptions, Option.bind_some,
    Json.Record.fieldOr_of r.lookup_version (Json.Reading.word64_ofNat _ r.version),
    Option.bind_some, hsuricata]
  rfl

theorem isIntegral_toJson (r : Rule) : r.toJson.isIntegral = true := by
  have hreasons : Json.membersIntegral (Json.memberOf "failureReasons" Json.ofTexts
      (if r.failureReasons = [] then none else some r.failureReasons)) = true :=
    Json.membersIntegral_memberOf fun xs _ => Json.isIntegral_ofTexts xs
  have hoptions : Json.membersIntegral (Json.memberOf "optionFields"
      (fun os => .array (os.map RuleOption.toJson)) r.optionFields) = true :=
    Json.membersIntegral_memberOf fun os _ => Json.allIntegral_map fun o _ => rfl
  have hsuricata : Json.membersIntegral (Json.memberOf "suricataString" .string r.suricata) =
      true := Json.membersIntegral_memberOf fun lines _ => rfl
  rw [toJson_eq, Json.isIntegral, members]
  simp [Json.membersIntegral_append, Json.membersIntegral, hreasons, hoptions, hsuricata,
    Json.isIntegral, Port.isIntegral_toJson, Json.isIntegral_ofNat r.version.toNat_lt]

end Rule

/-! ## Objects -/

theorem Tag.reading_toJson (levels : Nat) (tag : Tag) :
    Tag.reading (levels + 1) (Draft.ofJson tag.toJson) = some tag := by
  obtain ⟨r, hr, hkey, hvalue⟩ := Json.Record.ofDraft?_keyValue true levels tag.key tag.value
  simp [reading, toJson, hr, hkey, hvalue]

theorem ObjectKind.reading_name (levels : Nat) (kind : ObjectKind) :
    ObjectKind.reading levels (Draft.ofJson (.string kind.name)) = some kind := by
  cases kind <;> rfl

namespace FlowObject

theorem isOrdered_tags (tags : List Tag) : Json.allOrdered (tags.map Tag.toJson) = true := by
  induction tags with
  | nil => rfl
  | cons tag tags ih =>
    rw [List.map_cons, Json.allOrdered, ih]
    rfl

/-- The document of a value has one form, so it is kept as it is. -/
def storedValue (v : ObjectValue) : Json.Ordered where
  doc := valueJson v
  ordered := by
    cases v with
    | address literal => rfl
    | arn name => rfl
    | tagged tags => exact isOrdered_tags tags
    | lambda raw => exact raw.ordered

/-- A value of a kind is read from its document. -/
theorem valueOf?_storedValue (v : ObjectValue) : valueOf? v.kind (storedValue v) = some v := by
  cases v with
  | address literal => rfl
  | arn name => rfl
  | lambda raw => rfl
  | tagged tags =>
    have htags : Json.Reading.listOf Tag.reading 127 (Draft.ofJson (.array (tags.map Tag.toJson))) =
        some tags := Json.Reading.listOf_ofJson fun tag _ => tag.reading_toJson 125
    unfold valueOf? ObjectValue.kind storedValue valueJson
    simp only [Json.Reading.ofJson?, Json.nestingLimit, htags]
    rfl

theorem itemsDepth_tags_le (tags : List Tag) : Json.itemsDepth (tags.map Tag.toJson) ≤ 1 := by
  induction tags with
  | nil => exact Nat.zero_le 1
  | cons tag tags ih =>
    rw [List.map_cons, Json.itemsDepth]
    exact Nat.max_le.2 ⟨Nat.le_refl 1, ih⟩

/-- Only documents of functions can nest deeper than lists of tags. -/
theorem depth_valueJson_le {levels : Nat} {v : ObjectValue} (hlevels : 2 ≤ levels)
    (h : ∀ raw, v = .lambda raw → raw.doc.depth ≤ levels) : (valueJson v).depth ≤ levels := by
  cases v with
  | address literal => exact Nat.zero_le levels
  | arn name => exact Nat.zero_le levels
  | tagged tags =>
    have := itemsDepth_tags_le tags
    rw [valueJson, Json.depth]
    omega
  | lambda raw => exact h raw rfl

/-- **An object is read as it was stored**, if the document of a function leaves room for the level
around it. -/
theorem reading_toJson {levels : Nat} {o : FlowObject} (hlevels : 2 ≤ levels)
    (h : ∀ raw, o.value = .lambda raw → raw.doc.depth ≤ levels) :
    reading (levels + 1) (Draft.ofJson o.toJson) = some o := by
  have hraw : Json.Reading.raw levels (Draft.ofJson (valueJson o.value)) =
      some (storedValue o.value) :=
    Json.Reading.raw_ofJson (storedValue o.value) (depth_valueJson_le hlevels h)
  have hrecord : Json.Record.ofDraft? ["id", "type", "value"] false (levels + 1)
      (Draft.ofJson o.toJson) = some (.of levels [("id", .string o.id),
        ("type", .string o.kind.name), ("value", valueJson o.value)]) :=
    Json.Record.ofDraft?_ofJson (by decide) (by exact List.Sublist.refl _) false levels
  unfold reading
  simp only [hrecord, Option.bind_eq_bind, Option.bind_some]
  rw [Json.Record.field_of rfl (Json.Reading.text_ofJson _ o.id), Option.bind_some,
    Json.Record.field_of rfl (ObjectKind.reading_name _ o.kind), Option.bind_some,
    Json.Record.field_of rfl hraw, Option.bind_some, kind, valueOf?_storedValue]
  rfl

/-- An object of a function holds the document that it was given. -/
theorem valueOf?_eq_lambda {kind : ObjectKind} {raw raw' : Json.Ordered}
    (h : valueOf? kind raw = some (.lambda raw')) : raw = raw' := by
  cases kind with
  | lambda => cases h; rfl
  | address => simp [valueOf?] at h
  | arn => simp [valueOf?] at h
  | tagged => simp [valueOf?] at h

/-- What was read as an object leaves room for the level around it. -/
theorem depth_of_reading {levels : Nat} {d : Draft} {o : FlowObject}
    (h : reading levels d = some o) {raw : Json.Ordered} (hraw : o.value = .lambda raw) :
    raw.doc.depth + 1 ≤ levels := by
  simp only [reading, Option.bind_eq_bind, Option.bind_eq_some_iff] at h
  obtain ⟨r, hr, id, -, kind, -, raw', hraw', value, hvalue, ho⟩ := h
  cases ho
  -- the document of the function is the one that was settled below the object
  simp only at hraw
  rw [hraw] at hvalue
  rw [valueOf?_eq_lambda hvalue] at hraw'
  obtain ⟨d', -, hd'⟩ := Option.bind_eq_some_iff.1 hraw'
  have hdepth := Draft.depth_of_settle (Draft.ordered?_eq_some.1 hd')
  rw [Json.Record.levels_of_ofDraft? hr]
  omega

theorem isIntegral_toJson {o : FlowObject}
    (h : ∀ raw, o.value = .lambda raw → raw.doc.isIntegral = true) :
    o.toJson.isIntegral = true := by
  have hvalue : (valueJson o.value).isIntegral = true := by
    rcases hv : o.value with literal | name | tags | raw
    · rfl
    · rfl
    · exact Json.allIntegral_map fun tag _ => rfl
    · exact h raw hv
  simp [toJson, Json.isIntegral, Json.membersIntegral, hvalue]

end FlowObject

/-! ## Bundles -/

namespace Bundle

/-- The members of the stored form of a bundle. -/
def members (b : Bundle) : List (String × Json) :=
  [("id", .string b.id), ("description", Json.ofOption .string b.description),
    ("ruleGroupArn", .string b.ruleGroupArn), ("aggregatorName", .string b.aggregatorName),
    ("ownerGroup", Json.ofTexts b.ownerGroup)] ++
  Json.memberOf "lastSuccessSyncTimestamp" (fun t => .string t.text) b.lastSuccessSync

theorem keys_members_sublist (b : Bundle) : (b.members.map (·.1)).Sublist fieldNames := by
  unfold members
  rw [List.map_append]
  exact (List.Sublist.refl _).append (Json.keys_memberOf_sublist _ _ _)

theorem lookup_lastSuccessSync (b : Bundle) : b.members.lookup "lastSuccessSyncTimestamp" =
    b.lastSuccessSync.map fun t => .string t.text := by
  simp [members, List.lookup_cons, Json.lookup_memberOf_self]

theorem timestampReading_text {levels : Nat} {t : Timestamp} (h : t.HasPlainYear) :
    timestampReading levels (Draft.ofJson (.string t.text)) = some t := by
  rw [timestampReading, Json.Reading.text_ofJson, Option.bind_some, Timestamp.ofText?_text h]

/-- **A bundle is read as it was stored**, if it was brought up to date in a year of four digits, or
never. -/
theorem reading_toJson {levels : Nat} {b : Bundle} (h : ∀ t ∈ b.lastSuccessSync, t.HasPlainYear) :
    reading (levels + 2) (Draft.ofJson b.toJson) = some b := by
  have hrecord : Json.Record.ofDraft? fieldNames false (levels + 2) (Draft.ofJson b.toJson) =
      some (.of (levels + 1) b.members) :=
    Json.Record.ofDraft?_ofJson (by decide) b.keys_members_sublist false (levels + 1)
  have hdescription : (Json.Record.of (levels + 1) b.members).option "description"
      Json.Reading.text = some b.description :=
    Json.Record.option_of rfl (by simp) fun _ _ => rfl
  have htime : (Json.Record.of (levels + 1) b.members).fieldOr "lastSuccessSyncTimestamp" none
      (Json.Reading.nullable timestampReading) = some b.lastSuccessSync :=
    Json.Record.fieldOr_of_memberOf b.lookup_lastSuccessSync (by simp) fun t ht =>
      timestampReading_text (h t ht)
  rw [reading, hrecord, Option.bind_eq_bind, Option.bind_some]
  dsimp only [Option.bind_eq_bind]
  rw [Json.Record.field_of rfl (Json.Reading.text_ofJson _ b.id), Option.bind_some,
    hdescription, Option.bind_some,
    Json.Record.field_of rfl (Json.Reading.text_ofJson _ b.ruleGroupArn), Option.bind_some,
    Json.Record.field_of rfl (Json.Reading.text_ofJson _ b.aggregatorName), Option.bind_some,
    Json.Record.fieldOr_of rfl (Json.Reading.listOf_text_ofTexts _ b.ownerGroup),
    Option.bind_some, htime]
  rfl

theorem isIntegral_toJson (b : Bundle) : b.toJson.isIntegral = true := by
  have htime : Json.membersIntegral (Json.memberOf "lastSuccessSyncTimestamp"
      (fun t : Timestamp => .string t.text) b.lastSuccessSync) = true :=
    Json.membersIntegral_memberOf fun t _ => rfl
  have hdescription : (Json.ofOption .string b.description).isIntegral = true := by
    cases b.description <;> rfl
  simp [toJson, Json.isIntegral, Json.membersIntegral, htime, hdescription,
    Json.isIntegral_ofTexts]

end Bundle

/-! ## Contents -/

namespace Store

namespace Snapshot

/-- Whether the documents of functions hold no floating-point number and all times are in years of
four digits. -/
structure IsPlain (s : Snapshot) : Prop where
  raws : ∀ o ∈ s.objects, ∀ raw, o.value = .lambda raw → raw.doc.isIntegral = true
  times : ∀ b ∈ s.bundles, ∀ t ∈ b.lastSuccessSync, t.HasPlainYear

/-- Whether the documents of functions leave room for the levels around them: the contents, their
list of objects, and the object itself. -/
def Shallow (s : Snapshot) : Prop :=
  ∀ o ∈ s.objects, ∀ raw, o.value = .lambda raw → raw.doc.depth + 3 ≤ Json.nestingLimit

variable {s : Snapshot}

theorem isIntegral_toJson (h : s.IsPlain) : s.toJson.isIntegral = true := by
  have hbundles : Json.allIntegral (s.bundles.map Bundle.toJson) = true :=
    Json.allIntegral_map fun b _ => b.isIntegral_toJson
  have hrules : Json.allIntegral (s.rules.map Rule.toJson) = true :=
    Json.allIntegral_map fun r _ => r.isIntegral_toJson
  have hobjects : Json.allIntegral (s.objects.map FlowObject.toJson) = true :=
    Json.allIntegral_map fun o ho => FlowObject.isIntegral_toJson (h.raws o ho)
  simp [toJson, Json.isIntegral, Json.membersIntegral, hbundles, hrules, hobjects]

/-- **Contents are read as they were stored.** -/
theorem reading_toJson (h : s.IsPlain) (hs : s.Shallow) :
    Json.Reading.ofJson? reading s.toJson = some s := by
  have hrecord : Json.Record.ofDraft? ["ruleBundles", "rules", "objects"] false
      Json.nestingLimit (Draft.ofJson s.toJson) =
        some (.of 126 [("ruleBundles", .array (s.bundles.map Bundle.toJson)),
          ("rules", .array (s.rules.map Rule.toJson)),
          ("objects", .array (s.objects.map FlowObject.toJson))]) :=
    Json.Record.ofDraft?_ofJson (by decide) (by exact List.Sublist.refl _) false 126
  have hbundles : Json.Reading.listOf Bundle.reading 126
      (Draft.ofJson (.array (s.bundles.map Bundle.toJson))) = some s.bundles :=
    Json.Reading.listOf_ofJson fun b hb => Bundle.reading_toJson (h.times b hb)
  have hrules : Json.Reading.listOf Rule.reading 126
      (Draft.ofJson (.array (s.rules.map Rule.toJson))) = some s.rules :=
    Json.Reading.listOf_ofJson fun r _ => r.reading_toJson 122
  have hobjects : Json.Reading.listOf FlowObject.reading 126
      (Draft.ofJson (.array (s.objects.map FlowObject.toJson))) = some s.objects :=
    Json.Reading.listOf_ofJson fun o ho =>
      FlowObject.reading_toJson (by decide) fun raw hraw =>
        Nat.le_of_add_le_add_right (hs o ho raw hraw)
  unfold Json.Reading.ofJson? reading
  rw [hrecord, Option.bind_eq_bind, Option.bind_some]
  dsimp only [Option.bind_eq_bind]
  rw [Json.Record.fieldOr_of rfl hbundles, Option.bind_some, Json.Record.fieldOr_of rfl hrules,
    Option.bind_some, Json.Record.fieldOr_of rfl hobjects]
  rfl

/-- Whatever was read leaves room for the levels around it. -/
theorem shallow_of_reading {d : Draft} (h : reading Json.nestingLimit d = some s) : s.Shallow := by
  simp only [reading, Option.bind_eq_bind, Option.bind_eq_some_iff] at h
  obtain ⟨r, hr, bundles, -, rules, -, objects, hobjects, hs⟩ := h
  cases hs
  intro o ho raw hraw
  -- the contents take one level, their list of objects the next, and each object a third
  have hlevels := Json.Record.levels_of_ofDraft? hr
  unfold Json.Record.fieldOr at hobjects
  split at hobjects
  · obtain ⟨levels, hl, hread⟩ := Json.Reading.exists_of_listOf hobjects
    obtain ⟨d', hd'⟩ := hread o ho
    have := FlowObject.depth_of_reading hd' hraw
    omega
  · cases hobjects
    cases ho

end Snapshot

namespace Document

/-- The text for contents, compact or indented, is read as the document of these contents. -/
theorem decode?_of_text {s : Snapshot} (h : s.IsPlain) {text : String}
    (htext : text ∈ [s.toJson.compact, s.toJson.indented]) :
    decode? text = Json.Reading.ofJson? Snapshot.reading s.toJson := by
  have hdraft : Draft.ofText? text = some (.ofJson s.toJson) := by
    simp only [List.mem_cons, List.not_mem_nil, or_false] at htext
    rcases htext with rfl | rfl
    · exact Draft.ofText?_compact (Snapshot.isIntegral_toJson h)
    · exact Draft.ofText?_indented (Snapshot.isIntegral_toJson h)
  rw [decode?, Json.Reading.ofText?, hdraft, Option.bind_some, Json.Reading.ofJson?]

/-- **The text for contents holds these contents.** -/
theorem decode?_encode {s : Snapshot} (h : s.IsPlain) (hs : s.Shallow) :
    decode? (encode s) = some s := by
  rw [encode, decode?_of_text h (List.mem_cons_of_mem _ List.mem_cons_self)]
  exact Snapshot.reading_toJson h hs

theorem shallow_of_decode? {text : String} {s : Snapshot} (h : decode? text = some s) :
    s.Shallow := by
  obtain ⟨d, -, hd⟩ := Option.bind_eq_some_iff.1 h
  exact Snapshot.shallow_of_reading hd

/-- **Contents come back from their text**, whether it is compact or indented: all bundles, rules and
objects, with everything that is in them.  The limit on nesting is the only one that a text can
break, as long as no document of a function holds a floating-point number and all times are in years
of four digits. -/
theorem decode?_toJson_iff {s : Snapshot} (h : s.IsPlain) :
    ∀ text ∈ [s.toJson.compact, s.toJson.indented], decode? text = some s ↔ s.Shallow := by
  intro text htext
  refine ⟨shallow_of_decode?, fun hs => ?_⟩
  rw [decode?_of_text h htext]
  exact Snapshot.reading_toJson h hs

end Document

/-! ## An archive -/

namespace Sample

/-- A document of arrays, one within the other. -/
def nested : Nat → Json
  | 0 => .string "\u2028 \"app\" \x07"
  | depth + 1 => .array [nested depth]

theorem isOrdered_nested (depth : Nat) : (nested depth).isOrdered = true := by
  induction depth with
  | zero => rfl
  | succ depth ih => simp [nested, Json.isOrdered, Json.allOrdered, ih]

theorem isIntegral_nested (depth : Nat) : (nested depth).isIntegral = true := by
  induction depth with
  | zero => rfl
  | succ depth ih => simp [nested, Json.isIntegral, Json.allIntegral, ih]

theorem depth_nested (depth : Nat) : (nested depth).depth = depth := by
  induction depth with
  | zero => rfl
  | succ depth ih => simp [nested, Json.depth, Json.itemsDepth, ih]

/-- Contents with an object of every kind and a rule of every status; one rule has an empty list of
options, and one has none. -/
def archive (depth : Nat) : Snapshot where
  bundles := [⟨"b1", none, "g1", "", [], some Firewall.Sample.time⟩,
    ⟨"b2", some "", "g1", "org", ["ops", ""], none⟩]
  rules := [
    ⟨"r1", "b1", "pass", "tcp", "o1", .any, "o2", .single "443", .pending, [], none, 0, none⟩,
    ⟨"r2", "b1", "drop", "udp", "o3", .single "", "o4", .any, .active, [], some [],
      18446744073709551615, some "one\ntwo"⟩,
    ⟨"r3", "b2", "drop", "ip", "o3", .any, "o4", .any, .failed, ["why", ""],
      some [⟨"flow", "to_server"⟩], 1, none⟩]
  objects := [⟨"o1", .address "10.0.0.1"⟩, ⟨"o2", .arn "arn"⟩, ⟨"o3", .tagged [⟨"tier", "web"⟩]⟩,
    ⟨"o4", .lambda ⟨nested depth, isOrdered_nested depth⟩⟩]

theorem raw_of_mem_archive {depth : Nat} {o : FlowObject} (ho : o ∈ (archive depth).objects)
    {raw : Json.Ordered} (hraw : o.value = .lambda raw) : raw.doc = nested depth := by
  simp only [archive, List.mem_cons, List.not_mem_nil, or_false] at ho
  rcases ho with rfl | rfl | rfl | rfl <;> cases hraw
  rfl

theorem isPlain_archive (depth : Nat) : (archive depth).IsPlain where
  raws := fun o ho raw hraw => (raw_of_mem_archive ho hraw).symm ▸ isIntegral_nested depth
  times := by
    have hplain : Firewall.Sample.time.HasPlainYear := by decide
    simpa [archive] using hplain

theorem shallow_archive_iff (depth : Nat) : (archive depth).Shallow ↔ depth + 3 ≤ 127 := by
  constructor
  · intro h
    have hdepth := h ⟨"o4", .lambda ⟨nested depth, isOrdered_nested depth⟩⟩ (by simp [archive]) _
      rfl
    rwa [depth_nested] at hdepth
  · intro h o ho raw hraw
    rw [raw_of_mem_archive ho hraw, depth_nested]
    exact h

end Sample

/-- A function may nest 124 levels deep below the three levels around it, and no deeper. -/
theorem Document.decode?_toJson_archive :
    (Sample.archive 124).IsPlain ∧ (Sample.archive 125).IsPlain ∧
      decode? (Sample.archive 124).toJson.compact = some (Sample.archive 124) ∧
      decode? (Sample.archive 124).toJson.indented = some (Sample.archive 124) ∧
      decode? (Sample.archive 125).toJson.compact ≠ some (Sample.archive 125) := by
  have h124 := decode?_toJson_iff (Sample.isPlain_archive 124)
  have h125 := decode?_toJson_iff (Sample.isPlain_archive 125)
  have hshallow : (Sample.archive 124).Shallow := (Sample.shallow_archive_iff 124).2 (by decide)
  refine ⟨Sample.isPlain_archive 124, Sample.isPlain_archive 125,
    (h124 _ List.mem_cons_self).2 hshallow,
    (h124 _ (List.mem_cons_of_mem _ List.mem_cons_self)).2 hshallow, ?_⟩
  rw [ne_eq, h125 _ List.mem_cons_self, Sample.shallow_archive_iff]
  decide

end Store

end Firewall
