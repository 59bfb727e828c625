/-
# Which texts are resource names

A text is read as a resource name exactly if it is the text of one whose parts can be told apart, so
reading and writing are inverse to each other.  The type and the id of a resource are its longest
beginning and its longest end without a divider.

* `Arn.IsReadable` : names whose parts can be told apart;
* `Arn.isReadable_of_ofText?` : what is read is such a name, and its text is what was read;
* `Arn.Longest`, `longest_resourceType`, `longest_resourceId` : the first and the last piece;
* `Arn.ofText?_eq_some_iff` : the texts that are read.
-/
import Mathlib.Data.List.TakeWhile
import Firewall.Arn

namespace Firewall

namespace Arn

/-! ## Reading -/

/-- The parts of a name can be told apart in its text: none but the resource has a colon.  Partition,
service and resource are not empty. -/
structure IsReadable (a : Arn) : Prop where
  partition : IsPart a.partition
  service : IsPart a.service
  region : ':' ∉ a.region.toList
  accountId : ':' ∉ a.accountId.toList
  resource : a.resource ≠ ""

theorem IsReadable.ofText?_text {a : Arn} (h : a.IsReadable) : ofText? a.text = some a :=
  Arn.ofText?_text h.partition h.service h.region h.accountId h.resource

theorem isPart_ofList {cs : List Char} (hne : cs ≠ []) (hcolon : ':' ∉ cs) :
    IsPart (String.ofList cs) := by
  refine ⟨?_, by rwa [String.toList_ofList]⟩
  rw [Ne, ← String.toList_eq_nil_iff, String.toList_ofList]
  exact hne

/-- **What is read** is a name whose parts can be told apart, and the text is its text. -/
theorem isReadable_of_ofText? {s : String} {a : Arn} (h : ofText? s = some a) :
    s = a.text ∧ a.IsReadable := by
  unfold ofText? at h
  simp only [Option.bind_eq_bind, Option.bind_eq_some_iff, Prod.exists,
    Option.ite_none_right_eq_some, Option.some_inj] at h
  obtain ⟨scheme, rest, hscheme, partition, rest₁, hpartition, service, rest₂, hservice, region,
    rest₃, hregion, accountId, resource, haccount, ⟨rfl, hpne, hsne, hrne⟩, rfl⟩ := h
  obtain ⟨hs, -⟩ := cut_eq_some_iff.1 hscheme
  obtain ⟨rfl, hpcolon⟩ := cut_eq_some_iff.1 hpartition
  obtain ⟨rfl, hscolon⟩ := cut_eq_some_iff.1 hservice
  obtain ⟨rfl, hrcolon⟩ := cut_eq_some_iff.1 hregion
  obtain ⟨rfl, hacolon⟩ := cut_eq_some_iff.1 haccount
  refine ⟨?_, isPart_ofList hpne hpcolon, isPart_ofList hsne hscolon, ?_, ?_, ?_⟩
  · rw [← String.toList_inj, hs, toList_text]
    simp only [String.toList_ofList]
  · rwa [String.toList_ofList]
  · rwa [String.toList_ofList]
  · rw [Ne, ← String.toList_eq_nil_iff, String.toList_ofList]
    exact hrne

/-! ## The first and the last piece -/

/-- A piece is the longest one without a divider that lies in a text, at its beginning or at its
end. -/
structure Longest (Lies : List Char → List Char → Prop) (piece whole : List Char) : Prop where
  lies : Lies piece whole
  slash : '/' ∉ piece
  colon : ':' ∉ piece
  longest : ∀ other, Lies other whole → '/' ∉ other → ':' ∉ other → other.length ≤ piece.length

/-- A text without dividers. -/
theorem isDivider_eq_false_iff {cs : List Char} :
    (∀ c ∈ cs, (!isDivider c) = true) ↔ '/' ∉ cs ∧ ':' ∉ cs := by
  constructor
  · intro h
    exact ⟨fun hc => absurd (h _ hc) (by decide), fun hc => absurd (h _ hc) (by decide)⟩
  · rintro ⟨hslash, hcolon⟩ c hc
    have hcs : c ≠ '/' := fun heq => hslash (heq ▸ hc)
    have hcc : c ≠ ':' := fun heq => hcolon (heq ▸ hc)
    simp [isDivider, hcs, hcc]

/-- What stands before the first divider is the longest beginning without one. -/
theorem longest_takeWhile (cs : List Char) :
    Longest (· <+: ·) (cs.takeWhile fun c => !isDivider c) cs := by
  have hnone : ∀ c ∈ cs.takeWhile fun c => !isDivider c, (!isDivider c) = true :=
    fun c hc => List.mem_takeWhile_imp (p := fun c => !isDivider c) hc
  obtain ⟨hslash, hcolon⟩ := isDivider_eq_false_iff.1 hnone
  refine ⟨List.takeWhile_prefix _, hslash, hcolon, ?_⟩
  rintro other ⟨rest, rfl⟩ hslash hcolon
  rw [List.takeWhile_append_of_pos (isDivider_eq_false_iff.2 ⟨hslash, hcolon⟩), List.length_append]
  exact Nat.le_add_right _ _

/-- The longest beginning of a text read backwards is the longest end of the text. -/
theorem Longest.reverse {piece whole : List Char} (h : Longest (· <+: ·) piece whole.reverse) :
    Longest (· <:+ ·) piece.reverse whole := by
  refine ⟨?_, ?_, ?_, fun other hother hslash hcolon => ?_⟩
  · rw [← List.reverse_prefix, List.reverse_reverse]
    exact h.lies
  · rw [List.mem_reverse]
    exact h.slash
  · rw [List.mem_reverse]
    exact h.colon
  · have hle := h.longest other.reverse (List.reverse_prefix.2 hother) (by rwa [List.mem_reverse])
      (by rwa [List.mem_reverse])
    rwa [List.length_reverse] at hle ⊢

theorem longest_resourceType (a : Arn) :
    Longest (· <+: ·) a.resourceType.toList a.resource.toList := by
  rw [resourceType, String.toList_ofList]
  exact longest_takeWhile _

theorem longest_resourceId (a : Arn) :
    Longest (· <:+ ·) a.resourceId.toList a.resource.toList := by
  rw [resourceId, String.toList_ofList]
  exact (longest_takeWhile _).reverse

/-! ## Resource names -/

/-- **The texts that are read** as a name are the text of that name alone, if its parts can be told
apart, and none otherwise.  So writing undoes reading, and reading undoes writing.  The type of the
resource is its longest beginning without a divider, and its id the longest end without one. -/
theorem ofText?_eq_some_iff (s : String) (a : Arn) :
    (ofText? s = some a ↔ s = a.text ∧ a.IsReadable) ∧
    (ofText? s = some a → a.text = s) ∧
    (a.IsReadable → ofText? a.text = some a) ∧
    Longest (· <+: ·) a.resourceType.toList a.resource.toList ∧
    Longest (· <:+ ·) a.resourceId.toList a.resource.toList := by
  refine ⟨⟨isReadable_of_ofText?, ?_⟩, fun h => (isReadable_of_ofText? h).1.symm,
    IsReadable.ofText?_text, a.longest_resourceType, a.longest_resourceId⟩
  rintro ⟨rfl, h⟩
  exact h.ofText?_text

end Arn

end Firewall
