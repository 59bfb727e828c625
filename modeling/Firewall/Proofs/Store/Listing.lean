/-
# Listing all bundles

Bundles are listed page after page, each page naming the position of the next in its token.  The
pages put together are all bundles, in storage order; so a listing that is not refused half-way is
complete.

* `Store.Snapshot.position?_repr` : the token of a position stands for that position;
* `Store.Snapshot.pageEnd_eq_mod` : ends of pages are counted in 64 bits;
* `Store.Snapshot.pageFrom_of_lt`, `pageFrom_of_le` : a page and what the next ones hold;
* `Store.Repository.ScansFrom.perform_listBundles` : listing gives all bundles;
* `Deployment.perform_listBundles`, `perform_listBundles_inMemory` : the same for deployments;
* `Deployment.bundles_of_listBundles` : a listing that succeeds is complete.
-/
import Firewall.Proofs.Decimal
import Firewall.Proofs.Deployment

namespace Firewall

namespace Store

namespace Snapshot

/-! ## Pages -/

/-- The token of a position stands for that position, as long as it fits 64 bits. -/
theorem position?_repr {n : Nat} (h : n < UInt64.size) : position? (Nat.repr n) = some n := by
  unfold position?
  rw [Nat.toList_repr, Decimal.unsigned?_toDigits, Option.filter_some, if_pos (by simpa using h)]

/-- The page that the token of a position stands for. -/
theorem page_repr (s : Snapshot) {start : Nat} (h : start < UInt64.size) (limit : Nat) :
    s.page (some (Nat.repr start)) limit = .ok (s.pageFrom start limit) := by
  simp only [page, position?_repr h]

/-- The token of a position that does not fit 64 bits stands for no page. -/
theorem page_repr_of_le (s : Snapshot) {start : Nat} (h : UInt64.size ≤ start) (limit : Nat) :
    ∃ e, s.page (some (Nat.repr start)) limit = .error e := by
  have hnone : position? (Nat.repr start) = none := by
    unfold position?
    rw [Nat.toList_repr, Decimal.unsigned?_toDigits, Option.filter_some,
      if_neg (by simpa using h)]
  refine ⟨.storage ("Invalid page token: " ++ Nat.repr start), ?_⟩
  simp only [page, hnone]

/-- **Ends of pages are counted in 64 bits**, for every store that there can be. -/
theorem pageEnd_eq_mod {s : Snapshot} (hlen : s.bundles.length < 2 ^ 63) (start : Nat) {limit : Nat}
    (hlimit : limit < UInt64.size) :
    s.pageEnd start limit = (start + max limit 1) % UInt64.size := by
  have hsize : UInt64.size = 2 ^ 64 := rfl
  unfold pageEnd
  split
  · exact (Nat.mod_eq_of_lt (by omega)).symm
  · rfl

/-- A page that follows others of its size ends within 64 bits. -/
theorem pageEnd_of_le {s : Snapshot} {start limit : Nat} (hstart : start ≤ s.bundles.length)
    (hnext : start = 0 ∨ max limit 1 ≤ start) : s.pageEnd start limit = start + max limit 1 :=
  if_pos (by omega)

section PageFrom

variable {s : Snapshot} {start limit : Nat}

theorem items_pageFrom (hstart : start ≤ s.bundles.length)
    (hnext : start = 0 ∨ max limit 1 ≤ start) :
    (s.pageFrom start limit).items =
      (s.bundles.take (min (start + max limit 1) s.bundles.length)).drop start := by
  rw [← pageEnd_of_le hstart hnext]
  rfl

theorem nextToken_pageFrom (hstart : start ≤ s.bundles.length)
    (hnext : start = 0 ∨ max limit 1 ≤ start) :
    (s.pageFrom start limit).nextToken =
      if min (start + max limit 1) s.bundles.length < s.bundles.length then
        some (Nat.repr (min (start + max limit 1) s.bundles.length))
      else none := by
  rw [← pageEnd_of_le hstart hnext]
  rfl

/-- The last page holds all that is left. -/
theorem pageFrom_of_le (hstart : start ≤ s.bundles.length)
    (hnext : start = 0 ∨ max limit 1 ≤ start) (h : s.bundles.length ≤ start + max limit 1) :
    (s.pageFrom start limit).items = s.bundles.drop start ∧
      (s.pageFrom start limit).nextToken = none := by
  rw [items_pageFrom hstart hnext, nextToken_pageFrom hstart hnext, Nat.min_eq_right h,
    List.take_length, if_neg (Nat.lt_irrefl _)]
  exact ⟨rfl, rfl⟩

/-- **A page before the last**, and what the next ones hold. -/
theorem pageFrom_of_lt (hnext : start = 0 ∨ max limit 1 ≤ start)
    (h : start + max limit 1 < s.bundles.length) :
    (s.pageFrom start limit).items ++ s.bundles.drop (start + max limit 1) =
        s.bundles.drop start ∧
      (s.pageFrom start limit).nextToken = some (Nat.repr (start + max limit 1)) := by
  have hstart : start ≤ s.bundles.length := by omega
  rw [items_pageFrom hstart hnext, nextToken_pageFrom hstart hnext,
    Nat.min_eq_left (Nat.le_of_lt h), if_pos h]
  refine ⟨?_, rfl⟩
  have hlen : start ≤ (s.bundles.take (start + max limit 1)).length := by
    rw [List.length_take]
    omega
  rw [← List.drop_append_of_le_length hlen, List.take_append_drop]

end PageFrom

end Snapshot

/-! ## Listings -/

namespace Repository

variable {σ : Type}

/-- The pages of a repository are those of a snapshot as long as the world has some property, which
reading a page keeps.  Reading may fail only if `fails` holds. -/
def ScansFrom (r : Repository σ) (s : Snapshot) (P : σ → Prop) (fails : Prop) : Prop :=
  ∀ token limit w, P w → ∃ w', P w' ∧
    ((r.scan token limit).perform w = (s.page token limit, w') ∨
      fails ∧ ∃ e, (r.scan token limit).perform w = (.error e, w'))

namespace ScansFrom

variable {r : Repository σ} {s : Snapshot} {P : σ → Prop} {fails : Prop}

/-- The bundles from a position on, when there are pages enough for them.  If there are more bundles
than 64 bits can count, reading fails at the first position that does not fit. -/
theorem perform_listFrom (h : ScansFrom r s P fails)
    (hlen : s.bundles.length ≤ UInt64.size ∨ fails)
    {pages : Nat} (start : Nat) {token : Option String}
    (htoken : ∀ limit, s.page token limit = .ok (s.pageFrom start limit))
    (hstart : start ≤ s.bundles.length) (hnext : start = 0 ∨ max pageSize 1 ≤ start)
    (hpages : s.bundles.length < pages + start) {w : σ} (hw : P w) :
    ∃ w', P w' ∧ ((r.listFrom pages token).perform w = (.ok (s.bundles.drop start), w') ∨
      fails ∧ ∃ e, (r.listFrom pages token).perform w = (.error e, w')) := by
  induction pages generalizing start token w with
  | zero => omega
  | succ pages ih =>
    obtain ⟨w₁, hw₁, hscan | ⟨hf, e, hscan⟩⟩ := h token pageSize w hw
    · rw [htoken] at hscan
      rw [listFrom, Action.perform_bind_of_ok hscan]
      by_cases hlast : s.bundles.length ≤ start + max pageSize 1
      · obtain ⟨hitems, htoken'⟩ := Snapshot.pageFrom_of_le hstart hnext hlast
        rw [htoken', hitems]
        exact ⟨w₁, hw₁, Or.inl rfl⟩
      · rw [Nat.not_le] at hlast
        obtain ⟨hitems, htoken'⟩ := Snapshot.pageFrom_of_lt hnext hlast
        rw [htoken']
        by_cases hsize : start + max pageSize 1 < UInt64.size
        · have hrest := ih _ (fun limit => s.page_repr hsize limit) (Nat.le_of_lt hlast)
            (Or.inr (Nat.le_add_left _ _)) (by omega) hw₁
          obtain ⟨w₂, hw₂, hok | ⟨hf, e, he⟩⟩ := hrest
          · refine ⟨w₂, hw₂, Or.inl ?_⟩
            rw [Action.perform_bind_of_ok hok, Action.perform_pure, hitems]
          · exact ⟨w₂, hw₂, Or.inr ⟨hf, e, Action.perform_bind_of_error he _⟩⟩
        · -- there are pages left, but the token of the next one cannot be read
          rw [Nat.not_lt] at hsize
          have hf : fails := hlen.resolve_left (by omega)
          obtain ⟨next, rfl⟩ : ∃ next, pages = next + 1 := ⟨pages - 1, by omega⟩
          obtain ⟨e, hpage⟩ := s.page_repr_of_le hsize pageSize
          obtain ⟨w₂, hw₂, hscan₂ | ⟨-, e', hscan₂⟩⟩ :=
            h (some (Nat.repr (start + max pageSize 1))) pageSize w₁ hw₁
          · rw [hpage] at hscan₂
            exact ⟨w₂, hw₂, Or.inr ⟨hf, e, Action.perform_bind_of_error
              (Action.perform_bind_of_error hscan₂ _) _⟩⟩
          · exact ⟨w₂, hw₂, Or.inr ⟨hf, e', Action.perform_bind_of_error
              (Action.perform_bind_of_error hscan₂ _) _⟩⟩
    · exact ⟨w₁, hw₁, Or.inr ⟨hf, e, Action.perform_bind_of_error hscan _⟩⟩

/-- **Listing gives all bundles**, in storage order. -/
theorem perform_listBundles (h : ScansFrom r s P fails)
    (hlen : s.bundles.length ≤ UInt64.size ∨ fails)
    (hbound : ∀ w, P w → s.bundles.length < r.pageBound w) {w : σ} (hw : P w) :
    ∃ w', P w' ∧ (r.listBundles.perform w = (.ok s.bundles, w') ∨
      fails ∧ ∃ e, r.listBundles.perform w = (.error e, w')) :=
  h.perform_listFrom hlen 0 (fun _ => rfl) (Nat.zero_le _) (Or.inl rfl) (hbound w hw) hw

end ScansFrom

end Repository

end Store

/-! ## Deployments -/

namespace Deployment

variable {ω : Type}

/-- Pages are refused, or they are those of the store, as long as nothing is written. -/
theorem scansFrom (d : Deployment ω) (w : World ω) :
    d.repository.ScansFrom w.store (fun w' => w'.ledger = w.ledger) True := by
  intro token limit w₁ hw₁
  rcases d.perform_call_cases (.scan token limit) (Ledger.repository.scan token limit) w₁ with
    ⟨e, o, hc⟩ | ⟨o, hc⟩
  · exact ⟨⟨w₁.ledger, o⟩, hw₁, Or.inr ⟨trivial, e, hc⟩⟩
  · refine ⟨⟨w₁.ledger, o⟩, hw₁, Or.inl (hc.trans ?_)⟩
    rw [hw₁]
    rfl

/-- There are pages enough for all bundles. -/
theorem lt_pageBound (d : Deployment ω) {w w' : World ω} (h : w'.ledger = w.ledger) :
    w.store.bundles.length < d.repository.pageBound w' := by
  have hpages : d.repository.pageBound w' = w'.ledger.store.bundles.length + 1 := rfl
  rw [hpages, h]
  exact Nat.lt_succ_self _

/-- **A listing is refused, or gives all bundles**; the ledger stays in either case. -/
theorem perform_listBundles (d : Deployment ω) {w : World ω}
    (hlen : w.store.bundles.length ≤ UInt64.size) :
    ∃ w', w'.ledger = w.ledger ∧ (d.repository.listBundles.perform w = (.ok w.store.bundles, w') ∨
      ∃ e, d.repository.listBundles.perform w = (.error e, w')) := by
  obtain ⟨w', hw', h | ⟨-, h⟩⟩ :=
    (d.scansFrom w).perform_listBundles (Or.inl hlen) (fun _ => d.lt_pageBound) rfl
  · exact ⟨w', hw', Or.inl h⟩
  · exact ⟨w', hw', Or.inr h⟩

/-- **A listing that succeeds is complete**, however many bundles there are. -/
theorem bundles_of_listBundles (d : Deployment ω) {w w' : World ω} {bundles : List Bundle}
    (h : d.repository.listBundles.perform w = (.ok bundles, w')) :
    bundles = w.store.bundles ∧ w'.ledger = w.ledger := by
  obtain ⟨w₁, hw₁, hok | ⟨-, e, he⟩⟩ :=
    (d.scansFrom w).perform_listBundles (Or.inr trivial) (fun _ => d.lt_pageBound) rfl
  · rw [hok] at h
    cases h
    exact ⟨rfl, hw₁⟩
  · rw [he] at h
    cases h

/-- **Listing a store in memory** gives all bundles and leaves everything as it is. -/
theorem perform_listBundles_inMemory (accept : Evaluation.Update → Action ω Unit)
    (source : Inventory.Source ω) (chain : List Resolver) (denyRuleId : String) {w : World ω}
    (hlen : w.store.bundles.length ≤ UInt64.size) :
    (inMemory accept source chain denyRuleId).repository.listBundles.perform w =
      (.ok w.store.bundles, w) := by
  have hscan : (inMemory accept source chain denyRuleId).repository.ScansFrom w.store
      (fun w' => w' = w) False := by
    rintro token limit _ rfl
    exact ⟨_, rfl, Or.inl rfl⟩
  obtain ⟨w', rfl, h | ⟨hf, -⟩⟩ := hscan.perform_listBundles (Or.inl hlen)
    (by rintro _ rfl; exact Nat.lt_succ_self _) rfl
  · exact h
  · exact hf.elim

end Deployment

end Firewall
