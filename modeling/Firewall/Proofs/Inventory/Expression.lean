/-
# Expressions say one thing

The values of a query are spliced into the text that the inventory is asked, whatever characters they
hold.  No value can end early and go on as part of the query: the text in front of any rest that may
follow determines what was written and where the rest begins.  This holds of a quoted value, because a
quote inside it is written twice and none follows on the one that ends it; of a list of values; of a
condition, whose field ends at the first blank; and so of all conditions of a query.

* `Inventory.UniquelyRead` : texts that tell what they were written for, whatever may follow;
* `Inventory.uniquelyRead_quoted` : quoted values;
* `Inventory.UniquelyRead.joined` : lists with something between their entries;
* `Inventory.Condition.uniquelyRead_text` : conditions, on one value or on several;
* `Inventory.Query.expression_eq_iff_conditions` : the conditions of a query;
* `Inventory.Query.expression_eq_iff` : two queries with one expression ask for the same.
-/
import Mathlib.Data.List.Forall2
import Firewall.Inventory.Query

namespace Firewall

namespace Inventory

/-! ## Reading in front of a rest -/

/-- In front of rests that may follow, a text tells what it was written for, and where the rest
begins. -/
def UniquelyRead {α : Type} (follows : List Char → Prop) (text : α → List Char) : Prop :=
  ∀ x y r s, follows r → follows s → text x ++ r = text y ++ s → x = y ∧ r = s

/-- What stands before the first of some character, and what after it. -/
theorem append_cons_inj_of_not_mem {c : Char} {xs ys r s : List Char} (hx : c ∉ xs) (hy : c ∉ ys)
    (h : xs ++ c :: r = ys ++ c :: s) : xs = ys ∧ r = s := by
  induction xs generalizing ys with
  | nil =>
    cases ys with
    | nil => exact ⟨rfl, (List.cons.inj h).2⟩
    | cons y ys => exact absurd (List.mem_cons.2 (Or.inl (List.cons.inj h).1)) hy
  | cons x xs ih =>
    cases ys with
    | nil => exact absurd (List.mem_cons.2 (Or.inl (List.cons.inj h).1.symm)) hx
    | cons y ys =>
      obtain ⟨rfl, htail⟩ := List.cons.inj h
      obtain ⟨rfl, hrs⟩ := ih (fun hc => hx (List.mem_cons_of_mem x hc))
        (fun hc => hy (List.mem_cons_of_mem x hc)) htail
      exact ⟨rfl, hrs⟩

/-- Texts one after the other, with a mark and more between them, in front of a rest. -/
theorem joined_cons {α : Type} (text : α → List Char) (between : List Char) (x : α) (xs : List α)
    (r : List Char) :
    between.intercalate ((x :: xs).map text) ++ r =
      text x ++ if xs = [] then r else between ++ (between.intercalate (xs.map text) ++ r) := by
  cases xs with
  | nil => rw [List.map_singleton, List.intercalate_singleton, if_pos rfl]
  | cons y ys =>
    rw [List.map_cons, List.intercalate_cons_of_ne_nil (by simp), if_neg (List.cons_ne_nil y ys)]
    simp only [List.append_assoc]

/-- **A list is read uniquely** if its entries are, as long as the mark between them may follow on an
entry and does not follow on the list. -/
theorem UniquelyRead.joined {α : Type} {follows : List Char → Prop} {text : α → List Char}
    (h : UniquelyRead follows text) {mark : Char} {more : List Char}
    (hmark : ∀ rest, follows (mark :: rest)) {r s : List Char} (hr : follows r) (hs : follows s)
    (hr' : r.head? ≠ some mark) (hs' : s.head? ≠ some mark) {xs ys : List α} (hx : xs ≠ [])
    (hy : ys ≠ [])
    (heq : (mark :: more).intercalate (xs.map text) ++ r =
      (mark :: more).intercalate (ys.map text) ++ s) : xs = ys ∧ r = s := by
  induction xs generalizing ys with
  | nil => exact absurd rfl hx
  | cons x xs ih =>
    obtain ⟨y, ys, rfl⟩ := List.exists_cons_of_ne_nil hy
    rw [joined_cons, joined_cons] at heq
    have hfollows : ∀ {zs : List α} {t : List Char}, follows t → follows (if zs = [] then t else
        (mark :: more) ++ ((mark :: more).intercalate (zs.map text) ++ t)) := by
      intro zs t ht
      split
      · exact ht
      · exact hmark _
    obtain ⟨rfl, hrest⟩ := h _ _ _ _ (hfollows hr) (hfollows hs) heq
    -- either both lists end here, or both go on after the mark
    by_cases hxs : xs = [] <;> by_cases hys : ys = []
    · rw [if_pos hxs, if_pos hys] at hrest
      exact ⟨by rw [hxs, hys], hrest⟩
    · rw [if_pos hxs, if_neg hys] at hrest
      exact absurd (congrArg List.head? hrest) hr'
    · rw [if_neg hxs, if_pos hys] at hrest
      exact absurd (congrArg List.head? hrest).symm hs'
    · rw [if_neg hxs, if_neg hys] at hrest
      obtain ⟨rfl, rfl⟩ := ih hxs hys (List.append_cancel_left hrest)
      exact ⟨rfl, rfl⟩

/-! ## Values -/

/-- What may follow on a value: anything but a quote. -/
def EndsValue (rest : List Char) : Prop := rest.head? ≠ some '\''

/-- Characters with every quote written twice. -/
def doubled (cs : List Char) : List Char :=
  cs.flatMap fun c => if c = '\'' then ['\'', '\''] else [c]

theorem doubled_cons_quote (cs : List Char) :
    doubled ('\'' :: cs) = '\'' :: '\'' :: doubled cs := rfl

theorem doubled_cons_of_ne {c : Char} (h : c ≠ '\'') (cs : List Char) :
    doubled (c :: cs) = c :: doubled cs := by
  unfold doubled
  rw [List.flatMap_cons, if_neg h]
  rfl

/-- **The quote that ends a value** is the first that is not written twice. -/
theorem doubled_append_inj {cs ds r s : List Char} (hr : EndsValue r) (hs : EndsValue s)
    (h : doubled cs ++ '\'' :: r = doubled ds ++ '\'' :: s) : cs = ds ∧ r = s := by
  induction cs generalizing ds with
  | nil =>
    cases ds with
    | nil => exact ⟨rfl, (List.cons.inj h).2⟩
    | cons d ds =>
      by_cases hd : d = '\''
      · -- here the other text has a quote in the value, and so one that follows on the end
        rw [hd, doubled_cons_quote] at h
        exact absurd (congrArg List.head? (List.cons.inj h).2) hr
      · rw [doubled_cons_of_ne hd] at h
        exact absurd (List.cons.inj h).1.symm hd
  | cons c cs ih =>
    cases ds with
    | nil =>
      by_cases hc : c = '\''
      · rw [hc, doubled_cons_quote] at h
        exact absurd (congrArg List.head? (List.cons.inj h).2).symm hs
      · rw [doubled_cons_of_ne hc] at h
        exact absurd (List.cons.inj h).1 hc
    | cons d ds =>
      by_cases hc : c = '\'' <;> by_cases hd : d = '\''
      · rw [hc, hd, doubled_cons_quote, doubled_cons_quote] at h
        obtain ⟨rfl, hrs⟩ := ih (List.cons.inj (List.cons.inj h).2).2
        exact ⟨by rw [hc, hd], hrs⟩
      · rw [hc, doubled_cons_quote, doubled_cons_of_ne hd] at h
        exact absurd (List.cons.inj h).1.symm hd
      · rw [hd, doubled_cons_quote, doubled_cons_of_ne hc] at h
        exact absurd (List.cons.inj h).1 hc
      · rw [doubled_cons_of_ne hc, doubled_cons_of_ne hd] at h
        obtain ⟨hcd, htail⟩ := List.cons.inj h
        obtain ⟨rfl, hrs⟩ := ih htail
        exact ⟨by rw [hcd], hrs⟩

theorem toList_quoted_append (value : String) (rest : List Char) :
    (quoted value).toList ++ rest = '\'' :: (doubled value.toList ++ '\'' :: rest) := by
  simp only [quoted, String.toList_append, String.toList_ofList, List.append_assoc]
  rfl

/-- **A quoted value is read uniquely**, whatever characters it holds. -/
theorem uniquelyRead_quoted : UniquelyRead EndsValue fun value => (quoted value).toList := by
  intro x y r s hr hs h
  simp only [toList_quoted_append] at h
  obtain ⟨hxy, hrs⟩ := doubled_append_inj hr hs (List.cons.inj h).2
  exact ⟨String.toList_inj.1 hxy, hrs⟩

/-! ## Conditions -/

/-- What a condition can be about. -/
inductive Field
  | resourceType
  | resourceId
  | resourceName
  | relatedId
  | tag
  | subnetId
  | interfaceType
  deriving DecidableEq

/-- The name of a field in an expression. -/
def Field.name : Field → String
  | resourceType => "resourceType"
  | resourceId => "resourceId"
  | resourceName => "resourceName"
  | relatedId => "relationships.resourceId"
  | tag => "tags.tag"
  | subnetId => "configuration.subnetId"
  | interfaceType => "configuration.interfaceType"

/-- There is no blank in the name of a field. -/
theorem Field.blank_not_mem_name (f : Field) : ' ' ∉ f.name.toList := by
  cases f <;> decide

theorem Field.name_injective {f g : Field} (h : f.name.toList = g.name.toList) : f = g := by
  revert h
  cases f <;> cases g <;> decide

/-- The condition that a field has one of some values. -/
structure Condition where
  field : Field
  values : List String
  deriving DecidableEq

namespace Condition

/-- The text of a condition. -/
def text (c : Condition) : List Char := (membership c.field.name c.values).toList

/-- The values of a condition on several, and the bracket that closes them. -/
def listed (values : List String) : List Char :=
  [',', ' '].intercalate (values.map fun v => (quoted v).toList) ++ [')']

/-- What follows on the field of a condition and a blank. -/
def afterField : List String → List Char
  | [value] => ['=', ' '] ++ (quoted value).toList
  | values => ['I', 'N', ' ', '('] ++ listed values

theorem afterField_of_ne {values : List String} (h : ∀ v, values ≠ [v]) :
    afterField values = ['I', 'N', ' ', '('] ++ listed values := by
  unfold afterField
  split
  · next v => exact absurd rfl (h v)
  · rfl

theorem text_append (c : Condition) (rest : List Char) :
    c.text ++ rest = c.field.name.toList ++ ' ' :: (afterField c.values ++ rest) := by
  obtain ⟨field, values⟩ := c
  unfold text
  by_cases h : ∃ v, values = [v]
  · obtain ⟨v, rfl⟩ := h
    simp only [membership, afterField, String.toList_append, List.append_assoc]
    rfl
  · rw [not_exists] at h
    have hmembership : membership field.name values =
        field.name ++ " IN (" ++ ", ".intercalate (values.map quoted) ++ ")" := by
      unfold membership
      split
      · next v => exact absurd rfl (h v)
      · rfl
    rw [afterField_of_ne h, hmembership]
    simp only [listed, String.toList_append, String.toList_intercalate, List.map_map,
      List.append_assoc]
    rfl

/-- A list that is not empty starts with a quote. -/
theorem head?_listed_append {values : List String} (h : values ≠ []) (rest : List Char) :
    (listed values ++ rest).head? = some '\'' := by
  obtain ⟨v, vs, rfl⟩ := List.exists_cons_of_ne_nil h
  unfold listed
  rw [List.append_assoc, joined_cons fun v => (quoted v).toList, toList_quoted_append]
  rfl

/-- **A list of values is read uniquely**, be it empty or not. -/
theorem uniquelyRead_listed : UniquelyRead (fun _ => True) listed := by
  intro vs ws r s _ _ h
  have hclose : ∀ {t : List Char}, (listed [] ++ t).head? = some ')' := rfl
  by_cases hvs : vs = [] <;> by_cases hws : ws = []
  · rw [hvs, hws] at h
    exact ⟨hvs.trans hws.symm, (List.cons.inj h).2⟩
  · have hhead := congrArg List.head? h
    rw [head?_listed_append hws, hvs, hclose] at hhead
    cases hhead
  · have hhead := congrArg List.head? h
    rw [head?_listed_append hvs, hws, hclose] at hhead
    cases hhead
  · unfold listed at h
    rw [List.append_assoc, List.append_assoc] at h
    obtain ⟨hvw, hrs⟩ := uniquelyRead_quoted.joined (by simp [EndsValue]) (by simp [EndsValue])
      (by simp [EndsValue]) (by simp) (by simp) hvs hws h
    exact ⟨hvw, (List.cons.inj hrs).2⟩

/-- The values of a condition are read uniquely, be there one, several or none. -/
theorem uniquelyRead_afterField : UniquelyRead EndsValue afterField := by
  intro vs ws r s hr hs h
  by_cases hv : ∃ v, vs = [v] <;> by_cases hw : ∃ w, ws = [w]
  · obtain ⟨v, rfl⟩ := hv
    obtain ⟨w, rfl⟩ := hw
    have hquoted : (quoted v).toList ++ r = (quoted w).toList ++ s :=
      List.cons.inj (List.cons.inj h).2 |>.2
    obtain ⟨rfl, hrs⟩ := uniquelyRead_quoted v w r s hr hs hquoted
    exact ⟨rfl, hrs⟩
  · obtain ⟨v, rfl⟩ := hv
    rw [afterField_of_ne (not_exists.1 hw)] at h
    exact absurd (List.cons.inj h).1 (by decide)
  · obtain ⟨w, rfl⟩ := hw
    rw [afterField_of_ne (not_exists.1 hv)] at h
    exact absurd (List.cons.inj h).1 (by decide)
  · rw [afterField_of_ne (not_exists.1 hv), afterField_of_ne (not_exists.1 hw), List.append_assoc,
      List.append_assoc] at h
    exact uniquelyRead_listed vs ws r s trivial trivial (List.append_cancel_left h)

/-- **A condition is read uniquely**: its field ends at the first blank, and then come its values. -/
theorem uniquelyRead_text : UniquelyRead EndsValue text := by
  rintro ⟨f, vs⟩ ⟨g, ws⟩ r s hr hs h
  rw [text_append, text_append] at h
  obtain ⟨hname, hvalues⟩ :=
    append_cons_inj_of_not_mem f.blank_not_mem_name g.blank_not_mem_name h
  obtain ⟨rfl, hrs⟩ := uniquelyRead_afterField vs ws r s hr hs hvalues
  obtain rfl := Field.name_injective hname
  exact ⟨rfl, hrs⟩

end Condition

/-! ## Predicates -/

namespace Predicate

/-- The field that a predicate is about. -/
def field : Predicate → Field
  | resourceId _ => .resourceId
  | resourceName _ => .resourceName
  | related _ => .relatedId
  | tag _ _ => .tag
  | subnetIn _ => .subnetId
  | interfaceType _ => .interfaceType

/-- The values that a predicate allows; a tag is one text. -/
def values : Predicate → List String
  | resourceId id => [id]
  | resourceName name => [name]
  | related ids => ids
  | tag key value => [key ++ "=" ++ value]
  | subnetIn ids => ids
  | interfaceType kind => [kind]

/-- A predicate as a condition. -/
def condition (p : Predicate) : Condition := ⟨p.field, p.values⟩

theorem toList_expression (p : Predicate) : p.expression.toList = p.condition.text := by
  cases p <;> rfl

/-- Two predicates are of one kind and have the same payload; of a tag, key and value are one text. -/
def Same : Predicate → Predicate → Prop
  | resourceId id, resourceId id' => id = id'
  | resourceName name, resourceName name' => name = name'
  | related ids, related ids' => ids = ids'
  | tag key value, tag key' value' => key ++ "=" ++ value = key' ++ "=" ++ value'
  | subnetIn ids, subnetIn ids' => ids = ids'
  | interfaceType kind, interfaceType kind' => kind = kind'
  | _, _ => False

/-- If the predicate is about a tag, its key holds no equals sign. -/
def PlainKey : Predicate → Prop
  | tag key _ => '=' ∉ key.toList
  | _ => True

theorem condition_eq_iff {p p' : Predicate} : p.condition = p'.condition ↔ p.Same p' := by
  cases p <;> cases p' <;> simp [condition, field, values, Same]

/-- **The same predicates are equal**, unless a key holds an equals sign. -/
theorem Same.eq_of_plainKey {p p' : Predicate} (h : p.Same p') (hp : p.PlainKey)
    (hp' : p'.PlainKey) : p = p' := by
  cases p <;> cases p' <;> try exact h.elim
  case tag.tag key value key' value' =>
    have htext := congrArg String.toList h
    rw [String.toList_append, String.toList_append, String.toList_append, String.toList_append,
      List.append_assoc, List.append_assoc] at htext
    obtain ⟨hkey, hvalue⟩ := append_cons_inj_of_not_mem hp hp' htext
    rw [String.toList_inj.1 hkey, String.toList_inj.1 hvalue]
  all_goals exact congrArg _ h

end Predicate

/-! ## Queries -/

namespace Query

/-- The conditions of a query, the one on the types first. -/
def conditions (q : Query) : List Condition :=
  (if q.resourceTypes = [] then [] else [⟨.resourceType, q.resourceTypes⟩]) ++
    q.predicates.map Predicate.condition

theorem toList_clauses (q : Query) :
    q.clauses.map String.toList = q.conditions.map Condition.text := by
  unfold clauses conditions
  rw [List.map_append, List.map_append, List.map_map, List.map_map]
  congr 1
  · split <;> rfl
  · exact List.map_congr_left fun p _ => p.toList_expression

/-- The text of a query after its fields. -/
def afterFields (q : Query) : List Char :=
  if q.conditions = [] then []
  else " WHERE ".toList ++ " AND ".toList.intercalate (q.conditions.map Condition.text)

theorem toList_expression (q : Query) :
    q.expression.toList = ("SELECT " ++ ", ".intercalate q.fields).toList ++ q.afterFields := by
  have hnil : q.clauses = [] ↔ q.conditions = [] := by
    have hlength := congrArg List.length q.toList_clauses
    rw [List.length_map, List.length_map] at hlength
    rw [← List.length_eq_zero_iff, hlength, List.length_eq_zero_iff]
  unfold expression afterFields
  rw [String.toList_append]
  congr 1
  by_cases h : q.conditions = []
  · rw [if_pos h, if_pos (hnil.2 h)]
    rfl
  · rw [if_neg h, if_neg (mt hnil.1 h), String.toList_append, String.toList_intercalate,
      toList_clauses]

/-- **Queries for the same fields have one expression** exactly if they have the same conditions. -/
theorem expression_eq_iff_conditions {q q' : Query} (h : q.fields = q'.fields) :
    q.expression = q'.expression ↔ q.conditions = q'.conditions := by
  rw [← String.toList_inj, toList_expression, toList_expression, h, List.append_cancel_left_eq]
  constructor
  · intro heq
    unfold afterFields at heq
    by_cases hq : q.conditions = [] <;> by_cases hq' : q'.conditions = []
    · rw [hq, hq']
    · rw [if_pos hq, if_neg hq'] at heq
      cases heq
    · rw [if_neg hq, if_pos hq'] at heq
      cases heq
    · rw [if_neg hq, if_neg hq'] at heq
      have hsep : " AND ".toList = ' ' :: ['A', 'N', 'D', ' '] := by decide
      have hjoined := congrArg (· ++ []) (List.append_cancel_left heq)
      simp only [hsep] at hjoined
      have hend : EndsValue [] := fun hnil => by cases hnil
      have hmark : ∀ rest, EndsValue (' ' :: rest) := fun rest => by simp [EndsValue]
      exact (Condition.uniquelyRead_text.joined hmark hend hend (by simp) (by simp) hq hq'
        hjoined).1
  · intro heq
    unfold afterFields
    rw [heq]

/-- The conditions of a query tell its types from its predicates. -/
theorem conditions_eq_iff {q q' : Query} :
    q.conditions = q'.conditions ↔ q.resourceTypes = q'.resourceTypes ∧
      List.Forall₂ Predicate.Same q.predicates q'.predicates := by
  have hpredicates : ∀ {ps ps' : List Predicate},
      ps.map Predicate.condition = ps'.map Predicate.condition ↔
        List.Forall₂ Predicate.Same ps ps' := by
    intro ps ps'
    rw [← List.forall₂_eq_eq_eq, List.forall₂_map_left_iff, List.forall₂_map_right_iff]
    simp only [Predicate.condition_eq_iff]
  -- no predicate is about the type of a resource
  have hfirst : ∀ {types : List String} {cs : List Condition} {ps : List Predicate},
      (⟨.resourceType, types⟩ :: cs : List Condition) ≠ ps.map Predicate.condition := by
    intro types cs ps heq
    obtain ⟨p, ps, rfl, hp, -⟩ := List.map_eq_cons_iff.1 heq.symm
    have hfield : p.field = .resourceType := congrArg Condition.field hp
    cases p <;> cases hfield
  unfold conditions
  by_cases hq : q.resourceTypes = [] <;> by_cases hq' : q'.resourceTypes = []
  · rw [if_pos hq, if_pos hq', List.nil_append, List.nil_append, hpredicates, hq, hq']
    exact (and_iff_right rfl).symm
  · rw [if_pos hq, if_neg hq', hq]
    exact ⟨fun heq => absurd heq.symm hfirst, fun heq => absurd heq.1.symm hq'⟩
  · rw [if_neg hq, if_pos hq', hq']
    exact ⟨fun heq => absurd heq hfirst, fun heq => absurd heq.1 hq⟩
  · rw [if_neg hq, if_neg hq', List.singleton_append, List.singleton_append, List.cons.injEq,
      hpredicates, Condition.mk.injEq]
    exact and_congr_left fun _ => and_iff_right rfl

/-- **Two queries for the same fields have one expression only if they ask for the same**: their types
are equal, and their predicates agree one by one, in order.  A tag is written as one text, so of a tag
that text is the same, and hence key and value unless a key holds an equals sign. -/
theorem expression_eq_iff {q q' : Query} (h : q.fields = q'.fields) :
    q.expression = q'.expression ↔ q.resourceTypes = q'.resourceTypes ∧
      List.Forall₂ (fun p p' => p.Same p' ∧ (p.PlainKey → p'.PlainKey → p = p'))
        q.predicates q'.predicates := by
  rw [expression_eq_iff_conditions h, conditions_eq_iff]
  refine and_congr_right fun _ => ⟨fun hall => ?_, fun hall => ?_⟩
  · exact hall.imp fun p p' hp => ⟨hp, fun hkey hkey' => hp.eq_of_plainKey hkey hkey'⟩
  · exact hall.imp fun p p' hp => hp.1

end Query

/-! ## Values that look like more of the query -/

namespace Sample

/-- A query on one tag, whose value goes on like a query on a tag and an id. -/
def forged : Query where
  fields := ["resourceId"]
  resourceTypes := [ResourceType.machine]
  predicates := [.tag "team" "a' AND resourceId = 'i-1"]

/-- A query on a tag and an id. -/
def honest : Query := { forged with predicates := [.tag "team" "a", .resourceId "i-1"] }

end Sample

/-- A value cannot pass for a condition of its own. -/
theorem Query.expression_eq_iff_forged :
    Sample.forged.fields = Sample.honest.fields ∧
      Sample.forged.expression ≠ Sample.honest.expression := by
  refine ⟨rfl, fun heq => ?_⟩
  have hfields : Sample.forged.fields = Sample.honest.fields := rfl
  have hall := ((Query.expression_eq_iff hfields).1 heq).2
  exact absurd hall.length_eq (by decide)

end Inventory

end Firewall
