/-
# Where addresses come from

A literal address is resolved to itself.  Every other address is copied from an answer of the
inventory: it stands as a private address or as an address block in the configuration of a row.
What stands there is not looked at, so it is an address if the inventory holds addresses, and not
otherwise.

* `Inventory.Shows`, `Inventory.Shown` : the texts that rows and answers show as addresses;
* `Resolver.Traced` : results that are copied from answers;
* `Resolver.resolveBy_origin` : where the addresses of an object come from;
* `Resolver.resolveBy_origin_verbatim` : an inventory that shows something else.
-/
import Firewall.Proofs.Address
import Firewall.Proofs.Resolver.Inquiries

namespace Firewall

variable {σ : Type}

/-! ## What an inventory shows -/

namespace Inventory

/-- A row has the text as its private address or as its address block. -/
def Shows (row : Json) (text : String) : Prop :=
  configured? row "privateIpAddress" = some text ∨ configured? row "cidrBlock" = some text

/-- One of the answers has a row that shows the text. -/
def Shown (notes : List Inquiry) (text : String) : Prop :=
  ∃ inquiry ∈ notes, ∃ rows, inquiry.answer = .ok rows ∧ ∃ row ∈ rows, Shows row text

theorem Shown.mono {notes notes' : List Inquiry} (h : notes <+: notes') {text : String}
    (htext : Shown notes text) : Shown notes' text := by
  obtain ⟨inquiry, hinquiry, hrows⟩ := htext
  exact ⟨inquiry, h.subset hinquiry, hrows⟩

end Inventory

namespace Resolver

open Inventory

/-! ## Results that are copied -/

/-- Whenever the action succeeds, it has added to the notes, and they show every text that its
result names. -/
def Traced {α : Type} (names : α → String → Prop) (a : Action (σ × List Inquiry) α) : Prop :=
  ∀ w x w', a.perform w = (.ok x, w') → w.2 <+: w'.2 ∧ ∀ text, names x text → Shown w'.2 text

section Traced

variable {α β : Type} {names : α → String → Prop} {names' : β → String → Prop}

theorem traced_pure {x : α} (h : ∀ text, ¬ names x text) :
    Traced names (pure x : Action (σ × List Inquiry) α) := by
  rintro w _ _ ⟨⟩
  exact ⟨List.prefix_rfl, fun text htext => absurd htext (h text)⟩

theorem traced_throw (e : Error) : Traced names (throw e : Action (σ × List Inquiry) α) := by
  intro w x w' h
  cases h

/-- What a later part copies counts, whatever it makes of the result of an earlier one. -/
theorem Traced.bind {a : Action (σ × List Inquiry) α} {f : α → Action (σ × List Inquiry) β}
    (ha : Traced names a) (hf : ∀ x, Traced names' (f x)) : Traced names' (a >>= f) := by
  intro w y w'' h
  obtain ⟨x, w', hx, hy⟩ := Action.perform_bind_ok_iff.1 h
  obtain ⟨hgrows, htexts⟩ := hf x w' y w'' hy
  exact ⟨(ha w x w' hx).1.trans hgrows, htexts⟩

/-- What an earlier part copied may be handed on. -/
theorem Traced.map {a : Action (σ × List Inquiry) α} {g : α → β} (ha : Traced names a)
    (hg : ∀ x text, names' (g x) text → names x text) :
    Traced names' (a >>= fun x => pure (g x)) := by
  intro w y w' h
  obtain ⟨x, w', hx, hy⟩ := Action.perform_bind_ok_iff.1 h
  cases hy
  obtain ⟨hgrows, htexts⟩ := ha w x w' hx
  exact ⟨hgrows, fun text htext => htexts text (hg x text htext)⟩

/-- A list of actions copies what each of them does, since notes are kept. -/
theorem traced_mapM {f : α → Action (σ × List Inquiry) β} (hf : ∀ x, Traced names' (f x))
    (xs : List α) : Traced (fun ys text => ∃ y ∈ ys, names' y text) (xs.mapM f) := by
  induction xs with
  | nil => exact traced_pure fun text => by simp
  | cons x xs ih =>
    intro w ys w'' h
    obtain ⟨y, w', ys', hy, hys, rfl⟩ := Action.perform_mapM_ok_iff.1 h
    obtain ⟨hgrows, htexts⟩ := hf x w y w' hy
    obtain ⟨hgrows', htexts'⟩ := ih w' ys' w'' hys
    refine ⟨hgrows.trans hgrows', ?_⟩
    rintro text ⟨z, hz, htext⟩
    rcases List.mem_cons.1 hz with rfl | hz
    · exact (htexts text htext).mono hgrows'
    · exact htexts' text ⟨z, hz, htext⟩

end Traced

variable (source : Source σ) (bundle : Option Bundle) (o : FlowObject)

theorem traced_ask (q : Query) :
    Traced (fun rows text => ∃ row ∈ rows, Shows row text) (source.noted.ask bundle q) := by
  intro w rows w' h
  rw [Source.perform_ask_noted, Prod.mk.injEq] at h
  obtain ⟨hrows, rfl⟩ := h
  rw [hrows]
  refine ⟨List.prefix_append _ _, fun text htext => ?_⟩
  exact ⟨_, List.mem_append_right _ (List.mem_singleton_self _), rows, rfl, htext⟩

/-! ## Resolvers -/

theorem shows_of_mem_privateAddresses {rows : List Json} {text : String}
    (h : text ∈ privateAddresses rows) : ∃ row ∈ rows, Shows row text := by
  obtain ⟨row, hrow, htext⟩ := List.mem_filterMap.1 h
  exact ⟨row, hrow, .inl htext⟩

theorem shows_of_mem_cidrBlocks {rows : List Json} {text : String} (h : text ∈ cidrBlocks rows) :
    ∃ row ∈ rows, Shows row text := by
  obtain ⟨row, hrow, htext⟩ := List.mem_filterMap.1 h
  exact ⟨row, hrow, .inr htext⟩

theorem shows_of_mem_addressesOrBlocks {rows : List Json} {text : String}
    (h : text ∈ addressesOrBlocks rows) : ∃ row ∈ rows, Shows row text := by
  obtain ⟨row, hrow, htext⟩ := List.mem_filterMap.1 h
  refine ⟨row, hrow, ?_⟩
  rcases (Option.orElse_eq_some _ _ _).1 htext with htext | ⟨-, htext⟩
  · exact .inl htext
  · exact .inr htext

theorem traced_interfaceAddresses (ids : List String) (further : List Predicate) :
    Traced (fun addresses text => text ∈ addresses)
      (interfaceAddresses source.noted bundle ids further) :=
  (traced_ask source bundle _).map fun _ _ => shows_of_mem_privateAddresses

/-- An address that was found for an object. -/
def Finds (r : ResolvedObject) (address : String) : Prop := address ∈ r.addresses

/-- A miss has no address that would have to be traced. -/
theorem traced_missed (reason : String) :
    Traced Finds (pure (.missed o reason) : Action (σ × List Inquiry) ResolvedObject) :=
  traced_pure fun _ => List.not_mem_nil

/-- What is found among copied texts is copied. -/
theorem Traced.ofAddresses {α : Type} {names : α → String → Prop}
    {a : Action (σ × List Inquiry) α} (ha : Traced names a) {addresses : α → List String}
    (haddresses : ∀ x text, text ∈ addresses x → names x text) (reason : String) :
    Traced Finds (a >>= fun x => pure (ResolvedObject.ofAddresses o (addresses x) reason)) := by
  refine ha.map fun x text htext => haddresses x text ?_
  rwa [Finds, ResolvedObject.addresses_ofAddresses] at htext

theorem traced_resolveAsg (arn : Arn) :
    Traced Finds (resolveAsg source.noted bundle o arn) := by
  refine (traced_ask source bundle _).bind fun rows => ?_
  dsimp only
  split
  · exact traced_missed o _
  · refine (traced_mapM (fun id => traced_interfaceAddresses source bundle [id] []) _).ofAddresses
      o (fun lists text htext => ?_) _
    exact List.mem_flatten.1 htext

theorem traced_resolveTagged (tags : List Tag) :
    Traced Finds (resolveTagged source.noted bundle o tags) := by
  unfold resolveTagged
  split
  · exact traced_missed o _
  · exact (traced_ask source bundle _).ofAddresses o
      (fun rows text => shows_of_mem_addressesOrBlocks) _

theorem traced_resolveLambda (raw : Json.Ordered) :
    Traced Finds (resolveLambda source.noted bundle o raw) := by
  unfold resolveLambda
  split
  · refine (traced_ask source bundle _).bind fun rows => ?_
    dsimp only
    split
    · exact traced_missed o _
    · exact (traced_interfaceAddresses source bundle _ _).ofAddresses o (fun _ _ => id) _
  · exact traced_missed o _

/-- Every resolver but the one for literal addresses copies what the inventory shows. -/
theorem traced_resolve {resolver : Resolver} (h : resolver ≠ address) :
    Traced Finds (resolver.resolve source.noted bundle o) := by
  -- a resolver that does not take the object fails, and names nothing
  cases resolver <;> rw [resolve] <;> split <;> try exact traced_throw _
  · exact absurd rfl h
  · exact (traced_interfaceAddresses source bundle _ _).ofAddresses o (fun _ _ => id) _
  · exact (traced_ask source bundle _).ofAddresses o (fun rows text => shows_of_mem_cidrBlocks) _
  · exact traced_resolveAsg source bundle o _
  · exact traced_resolveTagged source bundle o _
  · exact traced_resolveLambda source bundle o _

/-! ## Chains -/

/-- A literal object is an address in the notation of literal addresses. -/
theorem literal?_eq_some_iff {o : FlowObject} {text : String} :
    literal? o = some text ↔ o.value = .address text ∧ Address.Written Address.Mask text.toList := by
  unfold literal?
  split
  · next value hvalue =>
    rw [hvalue, Option.ite_none_right_eq_some, Address.isLiteral_iff, Option.some.injEq,
      ObjectValue.address.injEq]
    constructor
    · rintro ⟨hwritten, rfl⟩
      exact ⟨rfl, hwritten⟩
    · rintro ⟨rfl, hwritten⟩
      exact ⟨hwritten, rfl⟩
  · next hother => exact iff_of_false nofun fun h => hother text h.1

variable {source : Source σ} {bundle : Option Bundle} {o : FlowObject}

/-- An address that is found is the literal address that the object is, or it is shown. -/
theorem origin_of_mem {chain : List Resolver} {s s' : σ} {r : ResolvedObject}
    (h : (resolveBy chain source bundle o).perform s = (.ok r, s')) {text : String}
    (htext : text ∈ r.addresses) :
    o.value = .address text ∧ Address.Written Address.Mask text.toList ∨
      Shown (inquiries chain source bundle o s) text := by
  have hnoted : ((resolveBy chain source.noted bundle o).perform (s, [])).1 = .ok r := by
    rw [perform_noted, h]
  unfold inquiries
  unfold resolveBy at hnoted ⊢
  split at hnoted
  · next resolver _ =>
    by_cases hresolver : resolver = address
    · subst hresolver
      rw [resolve] at hnoted
      split at hnoted
      · next value hvalue =>
        cases hnoted
        rw [List.mem_singleton.1 htext]
        exact .inl (literal?_eq_some_iff.1 hvalue)
      · cases hnoted
    · obtain ⟨-, hshown⟩ := traced_resolve source bundle o hresolver (s, []) r _
        (Prod.ext hnoted rfl)
      exact .inr (hshown text htext)
  · cases hnoted

/-- **Where addresses come from.**  Every address of an object that is resolved is the literal
address that the object is, or it is copied from an answer to one of the queries for this object,
where a row shows it.  So if all that is shown are plain addresses, then every object that is no
literal address is resolved to plain addresses only. -/
theorem resolveBy_origin {chain : List Resolver} {s s' : σ} {r : ResolvedObject}
    (h : (resolveBy chain source bundle o).perform s = (.ok r, s')) :
    (∀ text ∈ r.addresses,
      o.value = .address text ∧ Address.Written Address.Mask text.toList ∨
        Shown (inquiries chain source bundle o s) text) ∧
    ((∀ text, o.value ≠ .address text) →
      (∀ text, Shown (inquiries chain source bundle o s) text → Address.IsPlain text) →
      ∀ text ∈ r.addresses, Address.IsPlain text) := by
  refine ⟨fun text htext => origin_of_mem h htext, fun hother hplain text htext => ?_⟩
  rcases origin_of_mem h htext with ⟨hliteral, -⟩ | hshown
  · exact absurd hliteral (hother text)
  · exact hplain text hshown

/-- The machine has one interface, whose address is plain. -/
theorem resolveBy_origin_machine :
    ∃ r c', (resolveBy standard (Catalogue.source "org") none Sample.machine).perform
        (Catalogue.empty.insert "org" (some (Sample.machineInterface "10.0.0.5"))) = (.ok r, c') ∧
      r.addresses = ["10.0.0.5"] ∧ ∀ text ∈ r.addresses, Address.IsPlain text := by
  obtain ⟨r, c', h, haddresses⟩ : ∃ r c',
      (resolveBy standard (Catalogue.source "org") none Sample.machine).perform
        (Catalogue.empty.insert "org" (some (Sample.machineInterface "10.0.0.5"))) = (.ok r, c') ∧
      r.addresses = ["10.0.0.5"] := ⟨_, _, rfl, rfl⟩
  have hinquiries : inquiries standard (Catalogue.source "org") none Sample.machine
      (Catalogue.empty.insert "org" (some (Sample.machineInterface "10.0.0.5"))) =
        [⟨"org", interfaceQuery ["i-1"] [], .ok [(Sample.machineInterface "10.0.0.5").row]⟩] := rfl
  refine ⟨r, c', h, haddresses, (resolveBy_origin h).2 nofun ?_⟩
  rintro text ⟨inquiry, hinquiry, rows, hrows, row, hrow, hshows⟩
  rw [hinquiries, List.mem_singleton] at hinquiry
  subst hinquiry
  cases hrows
  rw [List.mem_singleton.1 hrow] at hshows
  rcases hshows with haddress | hblock
  · cases haddress
    exact .host (Address.quad?_eq_some_iff.1
      (show Address.quad? "10.0.0.5".toList = some 167772165 by decide +kernel))
  · cases hblock

/-! ## Texts that are copied as they are -/

/-- An inventory may show what is no IPv4 address at all, and a literal address may have a plus sign
in its mask: both are found as they stand. -/
theorem resolveBy_origin_verbatim :
    (∃ r c', (resolveBy standard (Catalogue.source "org") none Sample.machine).perform
        (Catalogue.empty.insert "org" (some (Sample.machineInterface "fd00::7"))) = (.ok r, c') ∧
      r.addresses = ["fd00::7"] ∧ ¬ Address.IsPlain "fd00::7") ∧
    ∃ r c', (resolveBy standard (Catalogue.source "org") none
        ⟨"o1", .address "10.0.0.0/+8"⟩).perform Catalogue.empty = (.ok r, c') ∧
      r.addresses = ["10.0.0.0/+8"] ∧ ¬ Address.IsPlain "10.0.0.0/+8" := by
  refine ⟨⟨_, _, rfl, rfl, fun hplain => ?_⟩, ⟨_, _, rfl, rfl, fun hplain => ?_⟩⟩
  · exact absurd hplain.isLiteral (by decide +kernel)
  · exact absurd (by decide +kernel) hplain.plus_not_mem

end Resolver

end Firewall
