/-
# Resource names

An ARN names a cloud resource in six parts divided by colons; only the last part, the resource, may
hold further colons.

* `Arn.ofText?` : reading a name;
* `Arn.text` : writing it;
* `Arn.resourceType`, `Arn.resourceId` : the first and the last piece of the resource;
* `Arn.ofText?_text` : a name is read back from its text.
-/

namespace Firewall

/-- The parts of a resource name. -/
structure Arn where
  partition : String
  service : String
  region : String
  accountId : String
  resource : String
  deriving DecidableEq, Repr

namespace Arn

/-! ## Reading and writing -/

/-- The characters before the first colon and those after it; nothing without a colon. -/
def cut : List Char → Option (List Char × List Char)
  | [] => none
  | c :: cs =>
    if c = ':' then some ([], cs)
    else (cut cs).map fun (before, after) => (c :: before, after)

/-- The name that a text holds.  Partition, service and resource must not be empty. -/
def ofText? (s : String) : Option Arn := do
  let (scheme, rest) ← cut s.toList
  let (partition, rest) ← cut rest
  let (service, rest) ← cut rest
  let (region, rest) ← cut rest
  let (accountId, resource) ← cut rest
  if scheme = ['a', 'r', 'n'] ∧ partition ≠ [] ∧ service ≠ [] ∧ resource ≠ [] then
    some
      { partition := String.ofList partition
        service := String.ofList service
        region := String.ofList region
        accountId := String.ofList accountId
        resource := String.ofList resource }
  else none

/-- The text of a name. -/
def text (a : Arn) : String :=
  "arn:" ++ a.partition ++ ":" ++ a.service ++ ":" ++ a.region ++ ":" ++ a.accountId ++ ":" ++
    a.resource

/-! ## The pieces of the resource -/

/-- The characters that divide a resource into pieces. -/
def isDivider (c : Char) : Bool := c = '/' || c = ':'

/-- The first piece of the resource. -/
def resourceType (a : Arn) : String :=
  String.ofList (a.resource.toList.takeWhile fun c => !isDivider c)

/-- The last piece of the resource. -/
def resourceId (a : Arn) : String :=
  String.ofList (a.resource.toList.reverse.takeWhile fun c => !isDivider c).reverse

/-- Whether the name is of that service and type of resource. -/
def isOf (a : Arn) (service resourceType : String) : Bool :=
  a.service = service && a.resourceType = resourceType

/-! ## Cutting at a colon -/

/-- Cutting loses nothing but the colon. -/
theorem cut_eq_some_iff {cs before after : List Char} :
    cut cs = some (before, after) ↔ cs = before ++ ':' :: after ∧ ':' ∉ before := by
  induction cs generalizing before with
  | nil => simp [cut]
  | cons c cs ih =>
    by_cases hc : c = ':'
    · subst hc
      constructor
      · intro h
        simp only [cut, if_true, Option.some.injEq, Prod.mk.injEq] at h
        obtain ⟨rfl, rfl⟩ := h
        simp
      · rintro ⟨h, hb⟩
        cases before with
        | nil => simp at h; simp [cut, h]
        | cons b bs => simp at h hb; exact absurd h.1 hb.1
    · constructor
      · intro h
        simp only [cut, hc, if_false] at h
        obtain ⟨⟨b, a⟩, hcut, heq⟩ := Option.map_eq_some_iff.1 h
        simp only [Prod.mk.injEq] at heq
        obtain ⟨rfl, rfl⟩ := heq
        obtain ⟨rfl, hb⟩ := ih.1 hcut
        simp [hb, Ne.symm hc]
      · rintro ⟨h, hb⟩
        cases before with
        | nil => simp at h; exact absurd h.1 hc
        | cons b bs =>
          simp only [List.cons_append, List.cons.injEq] at h
          simp only [List.mem_cons, not_or] at hb
          simp [cut, ih.2 ⟨h.2, hb.2⟩, h.1, Ne.symm hb.1]

/-- A text is cut at its first colon. -/
theorem cut_append {before : List Char} (h : ':' ∉ before) (after : List Char) :
    cut (before ++ ':' :: after) = some (before, after) :=
  cut_eq_some_iff.2 ⟨rfl, h⟩

/-! ## Names that are written -/

/-- A part of a name that can be read back: it is not empty and has no colon. -/
def IsPart (part : String) : Prop := part ≠ "" ∧ ':' ∉ part.toList

/-- The text of a name, character by character. -/
theorem toList_text (a : Arn) :
    a.text.toList = ['a', 'r', 'n'] ++ ':' :: (a.partition.toList ++ ':' ::
      (a.service.toList ++ ':' :: (a.region.toList ++ ':' :: (a.accountId.toList ++ ':' ::
        a.resource.toList)))) := by
  simp [text, String.toList_append]

/-- **A name is read back from its text**, as long as no part but the last has a colon. -/
theorem ofText?_text {a : Arn} (hpartition : IsPart a.partition) (hservice : IsPart a.service)
    (hregion : ':' ∉ a.region.toList) (haccount : ':' ∉ a.accountId.toList)
    (hresource : a.resource ≠ "") : ofText? a.text = some a := by
  have hscheme : ':' ∉ ['a', 'r', 'n'] := by decide
  unfold ofText?
  rw [toList_text]
  simp only [Option.bind_eq_bind, Option.bind_some, cut_append hscheme, cut_append hpartition.2,
    cut_append hservice.2, cut_append hregion, cut_append haccount, String.ofList_toList]
  refine if_pos ⟨trivial, ?_, ?_, ?_⟩
  · rw [Ne, String.toList_eq_nil_iff]
    exact hpartition.1
  · rw [Ne, String.toList_eq_nil_iff]
    exact hservice.1
  · rw [Ne, String.toList_eq_nil_iff]
    exact hresource

/-- The first piece of a resource that is written as a type, a divider and the rest. -/
theorem resourceType_of_append {a : Arn} {type rest : String}
    (ha : a.resource = type ++ "/" ++ rest) (htype : ∀ c ∈ type.toList, isDivider c = false) :
    a.resourceType = type := by
  have hpieces : a.resource.toList = type.toList ++ '/' :: rest.toList := by
    simp [ha, String.toList_append]
  unfold resourceType
  rw [hpieces, List.takeWhile_append_of_pos fun c hc => by rw [htype c hc]; rfl,
    List.takeWhile_cons_of_neg (by decide), List.append_nil, String.ofList_toList]

/-- The last piece of a resource that ends in a divider and an id. -/
theorem resourceId_of_append {a : Arn} {front id : String} (ha : a.resource = front ++ "/" ++ id)
    (hid : ∀ c ∈ id.toList, isDivider c = false) : a.resourceId = id := by
  have hpieces : a.resource.toList.reverse = id.toList.reverse ++ '/' :: front.toList.reverse := by
    simp [ha, String.toList_append]
  have hreverse : ∀ c ∈ id.toList.reverse, (!isDivider c) = true := by
    intro c hc
    rw [hid c (List.mem_reverse.1 hc)]
    rfl
  unfold resourceId
  rw [hpieces, List.takeWhile_append_of_pos hreverse, List.takeWhile_cons_of_neg (by decide),
    List.append_nil, List.reverse_reverse, String.ofList_toList]

end Arn

end Firewall
