/-
# Scanning while others write

Bundles are listed page by page, and others may write to the store between two pages.  No bundle is
ever removed, a bundle that is written again stays in its place, and new bundles go to the end; so a
position stands for the same bundle at all times, and a scan loses and repeats nothing.

* `Store.Shared`, `Store.Repository.shared` : a store in memory to which others write between reads;
* `Store.Repository.pages`, `listBundles_eq_map_pages` : the pages of a listing, of any size;
* `Store.Snapshot.Grown`, `grown_afterAll` : bundles stay in their places;
* `Store.Shared.perform_pagesFrom` : the pages of a scan, from a position on;
* `Store.Shared.listBundles_spec` : scans are faithful.
-/
import Firewall.Proofs.Store.Keys
import Firewall.Proofs.Store.Listing

namespace Firewall

namespace Store

/-! ## Stores that others write to -/

/-- A store in memory, and what others write to it before each of the next reads.  After the last of
these nothing more is written. -/
structure Shared where
  store : Snapshot
  pending : List (List Write)

namespace Shared

/-- The store at the next read. -/
def next (w : Shared) : Shared := ⟨w.store.afterAll (w.pending.headD []), w.pending.tail⟩

/-- The store at the last of some reads. -/
def after (w : Shared) : Nat → Shared
  | 0 => w
  | reads + 1 => w.next.after reads

/-- The contents when all is written. -/
def settled (w : Shared) : Snapshot := w.store.afterAll w.pending.flatten

/-- An action on a store, before which others write. -/
def interrupted {α : Type} (a : Action Snapshot α) : Action Shared α :=
  Action.ofFun fun w =>
    ((a.perform w.next.store).1, { w.next with store := (a.perform w.next.store).2 })

end Shared

namespace Repository

/-- A store in memory to which others write before each action. -/
def shared : Repository Shared where
  pageBound w := w.settled.bundles.length + 1
  scan token limit := Shared.interrupted (inMemory.scan token limit)
  bundle? id := Shared.interrupted (inMemory.bundle? id)
  rulesOf bundleId := Shared.interrupted (inMemory.rulesOf bundleId)
  objectsWith ids := Shared.interrupted (inMemory.objectsWith ids)
  putRules rules := Shared.interrupted (inMemory.putRules rules)
  stamp id time := Shared.interrupted (inMemory.stamp id time)

/-! ## The pages of a listing -/

variable {σ : Type}

/-- The pages from one on, at most `bound` of them. -/
def pagesFrom (r : Repository σ) (limit : Nat) : Nat → Option String → Action σ (List Page)
  | 0, _ => pure []
  | bound + 1, token => do
    let page ← r.scan token limit
    match page.nextToken with
    | some next => do
      let rest ← r.pagesFrom limit bound (some next)
      pure (page :: rest)
    | none => pure [page]

/-- All pages of at most `limit` bundles, one after the other. -/
def pages (r : Repository σ) (limit : Nat) : Action σ (List Page) :=
  Action.ofFun fun s => (r.pagesFrom limit (r.pageBound s) none).perform s

theorem listFrom_eq_map_pagesFrom (r : Repository σ) (bound : Nat) (token : Option String) :
    r.listFrom bound token =
      (fun pages => pages.flatMap Page.items) <$> r.pagesFrom pageSize bound token := by
  induction bound generalizing token with
  | zero => rfl
  | succ bound ih =>
    rw [listFrom, pagesFrom, map_bind]
    refine bind_congr fun page => ?_
    cases page.nextToken with
    | none => simp
    | some next => simp [ih]

/-- **A listing puts its pages together.** -/
theorem listBundles_eq_map_pages (r : Repository σ) :
    r.listBundles = (fun pages => pages.flatMap Page.items) <$> r.pages pageSize := by
  unfold listBundles pages
  simp only [listFrom_eq_map_pagesFrom]
  rfl

end Repository

/-! ## Bundles stay in their places -/

namespace Snapshot

/-- The bundles of the first contents are those of the second up to some position, and the ones behind
were inserted by the writes. -/
def Grown (s s' : Snapshot) (writes : List Write) : Prop :=
  ∃ new, s'.bundleIds = s.bundleIds ++ new ∧
    ∀ i ∈ new, ∃ b, Write.bundle b ∈ writes ∧ b.id = i

variable {s s' : Snapshot}

theorem Grown.length_le {writes : List Write} (h : s.Grown s' writes) :
    s.bundles.length ≤ s'.bundles.length := by
  obtain ⟨new, hids, -⟩ := h
  have hlength := congrArg List.length hids
  simp only [bundleIds, List.length_append, List.length_map] at hlength
  omega

/-- **Whatever is written, bundles stay in their places**, and what comes behind was inserted. -/
theorem grown_afterAll (s : Snapshot) (writes : List Write) :
    s.Grown (s.afterAll writes) writes := by
  obtain ⟨new, hids, hnew⟩ := (s.grows_afterAll writes).bundles
  refine ⟨new, hids, fun i hi => ?_⟩
  rw [hnew.mem_iff, List.mem_filter] at hi
  obtain ⟨write, hwrite, hi⟩ := List.mem_flatMap.1 hi.1
  cases write with
  | bundle b => exact ⟨b, hwrite, (List.mem_singleton.1 hi).symm⟩
  | _ => cases hi

/-- Whatever is written, ids are distinct if they were. -/
theorem nodup_bundleIds_afterAll (h : s.bundleIds.Nodup) (writes : List Write) :
    (s.afterAll writes).bundleIds.Nodup :=
  (s.grows_afterAll writes).bundles.nodup h

end Snapshot

/-! ## Reads -/

namespace Shared

variable {w : Shared}

theorem store_next_eq (w : Shared) : w.next.store = w.store.afterAll (w.pending.headD []) := rfl

/-- Reading does not change what is written in the end. -/
theorem settled_next (w : Shared) : w.next.settled = w.settled := by
  obtain ⟨s, _ | ⟨writes, pending⟩⟩ := w
  · rfl
  · exact (List.foldl_append ..).symm

/-- The store at the last of some reads has been written to before each of them. -/
theorem after_eq (w : Shared) (reads : Nat) :
    w.after reads = ⟨w.store.afterAll (w.pending.take reads).flatten, w.pending.drop reads⟩ := by
  induction reads generalizing w with
  | zero => rfl
  | succ reads ih =>
    rw [after, ih]
    obtain ⟨s, _ | ⟨writes, pending⟩⟩ := w
    · simp [next, Snapshot.afterAll]
    · simp [next, Snapshot.afterAll]

/-- The bundles at a read are there in the end. -/
theorem length_next_le_settled (w : Shared) :
    w.next.store.bundles.length ≤ w.settled.bundles.length := by
  rw [← w.settled_next]
  exact (Snapshot.grown_afterAll _ _).length_le

/-- A view of bundles keeps its place under all writes to come. -/
def Stable {β : Type} (view : Bundle → β) (w : Shared) : Prop :=
  ∀ writes ∈ w.pending, ∀ s : Snapshot,
    s.bundles.map view <+: (s.afterAll writes).bundles.map view

theorem stable_id (w : Shared) : w.Stable Bundle.id := fun writes _ s => by
  obtain ⟨new, hids, -⟩ := s.grown_afterAll writes
  exact ⟨new, hids.symm⟩

section Stable

variable {β : Type} {view : Bundle → β}

theorem Stable.next (h : w.Stable view) : w.next.Stable view :=
  fun writes hwrites => h writes (List.mem_of_mem_tail hwrites)

theorem Stable.prefix_next (h : w.Stable view) :
    w.store.bundles.map view <+: w.next.store.bundles.map view := by
  obtain ⟨s, _ | ⟨writes, pending⟩⟩ := w
  · exact List.prefix_rfl
  · exact h writes List.mem_cons_self s

theorem Stable.prefix_after (h : w.Stable view) (reads : Nat) :
    w.store.bundles.map view <+: (w.after reads).store.bundles.map view := by
  induction reads generalizing w with
  | zero => exact List.prefix_rfl
  | succ reads ih => exact h.prefix_next.trans (ih h.next)

end Stable

/-! ## Walks -/

/-- The pages of a walk from a position on.  Each is a page of the store at that read, and all but the
last are full. -/
structure Scanned (limit start : Nat) (w : Shared) (pages : List Page) : Prop where
  read : ∀ k page, pages[k]? = some page →
    page = (w.after (k + 1)).store.pageFrom (start + k * max limit 1) limit
  full : ∀ page ∈ pages.dropLast, page.items.length = max limit 1
  ended : ∃ page ∈ pages.getLast?, page.nextToken = none

/-- The last page of a walk that ends at once. -/
theorem scanned_singleton {limit start : Nat}
    (h : (w.next.store.pageFrom start limit).nextToken = none) :
    Scanned limit start w [w.next.store.pageFrom start limit] := by
  refine ⟨fun k page hk => ?_, fun page hpage => ?_, _, rfl, h⟩
  · cases k with
    | zero =>
      cases hk
      rw [Nat.zero_mul, Nat.add_zero]
      rfl
    | succ k => cases hk
  · cases hpage

/-- A full page, and the walk that goes on behind it. -/
theorem Scanned.cons {limit start : Nat} {pages : List Page}
    (hnext : start = 0 ∨ max limit 1 ≤ start)
    (hfull : start + max limit 1 ≤ w.next.store.bundles.length)
    (h : Scanned limit (start + max limit 1) w.next pages) :
    Scanned limit start w (w.next.store.pageFrom start limit :: pages) := by
  have hne : pages ≠ [] := by
    rintro rfl
    obtain ⟨page, hpage, -⟩ := h.ended
    cases hpage
  refine ⟨fun k page hk => ?_, fun page hpage => ?_, ?_⟩
  · cases k with
    | zero =>
      cases hk
      rw [Nat.zero_mul, Nat.add_zero]
      rfl
    | succ k =>
      rw [List.getElem?_cons_succ] at hk
      rw [h.read k page hk, Nat.succ_mul, Nat.add_assoc, Nat.add_comm (max limit 1)]
      rfl
  · rw [List.dropLast_cons_of_ne_nil hne] at hpage
    rcases List.mem_cons.1 hpage with rfl | hpage
    · rw [Snapshot.items_pageFrom (by omega) hnext, Nat.min_eq_left hfull, List.length_drop,
        List.length_take_of_le hfull, Nat.add_sub_cancel_left]
    · exact h.full page hpage
  · rw [List.getLast?_cons_of_ne_nil hne]
    exact h.ended

/-- The bundles of a full page, and those that are behind it later on. -/
theorem map_items_pageFrom_append {β : Type} {view : Bundle → β} {s s' : Snapshot}
    {start limit : Nat} (hnext : start = 0 ∨ max limit 1 ≤ start)
    (hfull : start + max limit 1 < s.bundles.length)
    (h : s.bundles.map view <+: s'.bundles.map view) :
    (s.pageFrom start limit).items.map view ++
        (s'.bundles.map view).drop (start + max limit 1) =
      (s'.bundles.map view).drop start := by
  obtain ⟨more, hmore⟩ := h
  have hlength : (s.bundles.map view).length = s.bundles.length := List.length_map _
  have hitems := congrArg (List.map view) (Snapshot.pageFrom_of_lt hnext hfull).1
  rw [List.map_append, List.map_drop, List.map_drop] at hitems
  rw [← hmore, List.drop_append_of_le_length (by omega), List.drop_append_of_le_length (by omega),
    ← List.append_assoc, hitems]

/-- **A walk from a position on** reads full pages until the last, and puts together what is there at
the last read.  It fails only if there are more bundles than 64 bits can count. -/
theorem perform_pagesFrom {β : Type} {view : Bundle → β} (hview : w.Stable view) (limit : Nat)
    {bound start : Nat} {token : Option String}
    (htoken : ∀ s : Snapshot, s.page token limit = .ok (s.pageFrom start limit))
    (hstart : start ≤ w.next.store.bundles.length) (hnext : start = 0 ∨ max limit 1 ≤ start)
    (hbound : w.settled.bundles.length < bound + start) :
    (∃ pages, (Repository.shared.pagesFrom limit bound token).perform w =
        (.ok pages, w.after pages.length) ∧ Scanned limit start w pages ∧
      (pages.flatMap Page.items).map view =
        ((w.after pages.length).store.bundles.map view).drop start) ∨
      UInt64.size < w.settled.bundles.length ∧
        ∃ e w', (Repository.shared.pagesFrom limit bound token).perform w = (.error e, w') := by
  induction bound generalizing start token w with
  | zero =>
    have := w.length_next_le_settled
    omega
  | succ bound ih =>
    have hscan : (Repository.shared.scan token limit).perform w =
        (.ok (w.next.store.pageFrom start limit), w.next) :=
      congrArg (·, w.next) (htoken w.next.store)
    rw [Repository.pagesFrom, Action.perform_bind_of_ok hscan]
    by_cases hlast : w.next.store.bundles.length ≤ start + max limit 1
    · obtain ⟨hitems, hlasttoken⟩ := Snapshot.pageFrom_of_le hstart hnext hlast
      simp only [hlasttoken]
      refine Or.inl ⟨_, rfl, scanned_singleton hlasttoken, ?_⟩
      rw [List.flatMap_singleton, hitems, List.map_drop]
      rfl
    · rw [Nat.not_le] at hlast
      have hnexttoken := (Snapshot.pageFrom_of_lt hnext hlast).2
      simp only [hnexttoken]
      -- the store only grows, so the position of the next page is in it at the next read
      have hgrown := (w.next.store.grown_afterAll (w.next.pending.headD [])).length_le
      rw [← store_next_eq] at hgrown
      have hsettled := w.length_next_le_settled
      by_cases hsize : start + max limit 1 < UInt64.size
      · rcases ih hview.next (fun s => s.page_repr hsize limit) (by omega)
            (Or.inr (Nat.le_add_left _ _)) (by rw [settled_next]; omega) with
          ⟨pages, hpages, hscanned, hitems⟩ | ⟨hlarge, e, w', he⟩
        · rw [Action.perform_bind_of_ok hpages]
          refine Or.inl ⟨_, rfl, hscanned.cons hnext (Nat.le_of_lt hlast), ?_⟩
          rw [List.flatMap_cons, List.map_append, hitems]
          exact map_items_pageFrom_append hnext hlast (hview.next.prefix_after pages.length)
        · rw [settled_next] at hlarge
          exact Or.inr ⟨hlarge, e, w', Action.perform_bind_of_error he _⟩
      · -- there are bundles left, but the token of the next page cannot be read
        rw [Nat.not_lt] at hsize
        refine Or.inr ⟨by omega, ?_⟩
        obtain ⟨bound, rfl⟩ : ∃ bound', bound = bound' + 1 := ⟨bound - 1, by omega⟩
        obtain ⟨e, hpage⟩ := w.next.next.store.page_repr_of_le hsize limit
        have hscan' : (Repository.shared.scan (some (Nat.repr (start + max limit 1))) limit).perform
            w.next = (.error e, w.next.next) := congrArg (·, w.next.next) hpage
        exact ⟨e, w.next.next, Action.perform_bind_of_error
          (Action.perform_bind_of_error hscan' _) _⟩

end Shared

/-! ## Stores that nobody else writes to -/

/-- A shared store to which nothing is written is read like a store in memory. -/
theorem Repository.alike_pagesFrom (limit bound : Nat) (token : Option String) :
    Action.Alike (fun (w : Shared) s => w = ⟨s, []⟩) (shared.pagesFrom limit bound token)
      (inMemory.pagesFrom limit bound token) := by
  induction bound generalizing token with
  | zero => exact Action.alike_pure _
  | succ bound ih =>
    have hscan : Action.Alike (fun (w : Shared) s => w = ⟨s, []⟩) (shared.scan token limit)
        (inMemory.scan token limit) := by
      rintro _ s rfl
      exact ⟨rfl, rfl⟩
    refine Action.alike_bind hscan fun page => ?_
    cases page.nextToken with
    | none => exact Action.alike_pure _
    | some next => exact Action.alike_bind (ih (some next)) fun rest => Action.alike_pure _

namespace Shared

/-- Nothing is ever written to a store that nobody else writes to. -/
theorem after_of_quiet (s : Snapshot) (reads : Nat) : (⟨s, []⟩ : Shared).after reads = ⟨s, []⟩ := by
  induction reads with
  | zero => rfl
  | succ reads ih => exact ih

/-- **Without other writes**, the pages of a store put together are its bundles. -/
theorem perform_pages_inMemory {s : Snapshot} (hlen : s.bundles.length ≤ UInt64.size)
    (limit : Nat) :
    ∃ pages, (Repository.inMemory.pages limit).perform s = (.ok pages, s) ∧
      Scanned limit 0 ⟨s, []⟩ pages ∧ pages.flatMap Page.items = s.bundles := by
  have hview : Stable (fun b => b) ⟨s, []⟩ := fun writes hwrites => by cases hwrites
  obtain ⟨hresult, hstore⟩ :=
    Repository.alike_pagesFrom limit (s.bundles.length + 1) none ⟨s, []⟩ s rfl
  rcases perform_pagesFrom hview limit
    (fun s' => (rfl : s'.page none limit = .ok (s'.pageFrom 0 limit)))
    (Nat.zero_le _) (Or.inl rfl) (Nat.lt_succ_self s.bundles.length) with
    ⟨pages, hpages, hscanned, hitems⟩ | ⟨hlarge, -⟩
  · rw [hpages] at hresult hstore
    rw [after_of_quiet] at hstore hitems
    rw [List.map_id', List.map_id', List.drop_zero] at hitems
    refine ⟨pages, Prod.ext hresult.symm ?_, hscanned, hitems⟩
    exact (congrArg Shared.store hstore).symm
  · exact absurd hlarge (Nat.not_lt.2 hlen)

/-! ## All scans -/

/-- What a scan of some reads gives: ids that are distinct, namely all those of the last read.  The
first of them are those of the first read, and the others were inserted between the two. -/
structure Faithful (w : Shared) (reads : Nat) (bundles : List Bundle) : Prop where
  distinct : (bundles.map Bundle.id).Nodup
  complete : bundles.map Bundle.id = (w.after reads).store.bundleIds
  grown : ∃ new, bundles.map Bundle.id = (w.after 1).store.bundleIds ++ new ∧
    ∀ i ∈ new, ∃ b, Write.bundle b ∈ ((w.pending.take reads).drop 1).flatten ∧ b.id = i

section Scans

variable {w : Shared} (hids : w.store.bundleIds.Nodup)
include hids

/-- The ids of the last read make a scan faithful. -/
theorem faithful_of_map_id {reads : Nat} {bundles : List Bundle}
    (h : bundles.map Bundle.id = (w.after (reads + 1)).store.bundleIds) :
    w.Faithful (reads + 1) bundles := by
  have hlast : (w.after (reads + 1)).store =
      w.next.store.afterAll (w.pending.tail.take reads).flatten := by
    rw [after, after_eq]
    rfl
  refine ⟨?_, h, ?_⟩
  · rw [h, after_eq]
    exact Snapshot.nodup_bundleIds_afterAll hids _
  · obtain ⟨new, hnew, hinserted⟩ :=
      w.next.store.grown_afterAll (w.pending.tail.take reads).flatten
    refine ⟨new, by rw [h, hlast, hnew]; rfl, ?_⟩
    rw [List.drop_take, List.drop_one, Nat.add_sub_cancel]
    exact hinserted

/-- **The pages of a store that others write to** are faithful, whatever their size. -/
theorem perform_pages (limit : Nat) :
    (∃ pages, (Repository.shared.pages limit).perform w = (.ok pages, w.after pages.length) ∧
      Scanned limit 0 w pages ∧ w.Faithful pages.length (pages.flatMap Page.items)) ∨
      UInt64.size < w.settled.bundles.length ∧
        ∃ e w', (Repository.shared.pages limit).perform w = (.error e, w') := by
  rcases perform_pagesFrom w.stable_id limit
    (fun s => (rfl : s.page none limit = .ok (s.pageFrom 0 limit)))
    (Nat.zero_le _) (Or.inl rfl) (Nat.lt_succ_self w.settled.bundles.length) with
    ⟨pages, hpages, hscanned, hitems⟩ | ⟨hlarge, hfails⟩
  · refine Or.inl ⟨pages, hpages, hscanned, ?_⟩
    obtain ⟨last, hlast, -⟩ := hscanned.ended
    obtain ⟨reads, hreads⟩ : ∃ reads, pages.length = reads + 1 :=
      Nat.exists_eq_succ_of_ne_zero (List.length_pos_of_mem (List.mem_of_getLast? hlast)).ne'
    rw [hreads] at hitems ⊢
    exact faithful_of_map_id hids hitems
  · exact Or.inr ⟨hlarge, hfails⟩

/-- **Scans are faithful**, with any number of bundles on a page, and so is a listing: however others
write to the store in the meantime, no bundle that was there at the first read is missing, none comes
twice, and all others were inserted during the scan.  Every page but the last is full, so scans come to
an end, unless there are more bundles than 64 bits can count.  When nobody writes, they give exactly
the bundles that are stored. -/
theorem listBundles_spec :
    (∀ limit,
      (∃ pages, (Repository.shared.pages limit).perform w = (.ok pages, w.after pages.length) ∧
        Scanned limit 0 w pages ∧ w.Faithful pages.length (pages.flatMap Page.items)) ∨
      UInt64.size < w.settled.bundles.length ∧
        ∃ e w', (Repository.shared.pages limit).perform w = (.error e, w')) ∧
    ((∃ reads bundles, Repository.shared.listBundles.perform w = (.ok bundles, w.after reads) ∧
        w.Faithful reads bundles) ∨
      UInt64.size < w.settled.bundles.length ∧
        ∃ e w', Repository.shared.listBundles.perform w = (.error e, w')) ∧
    (w.store.bundles.length ≤ UInt64.size →
      (∀ limit, ∃ pages,
        (Repository.inMemory.pages limit).perform w.store = (.ok pages, w.store) ∧
          Scanned limit 0 ⟨w.store, []⟩ pages ∧ pages.flatMap Page.items = w.store.bundles) ∧
      Repository.inMemory.listBundles.perform w.store = (.ok w.store.bundles, w.store)) := by
  refine ⟨perform_pages hids, ?_, fun hlen => ⟨perform_pages_inMemory hlen, ?_⟩⟩
  · rw [Repository.listBundles_eq_map_pages, map_eq_pure_bind]
    rcases perform_pages hids pageSize with ⟨pages, hpages, -, hfaithful⟩ | ⟨hlarge, e, w', hfails⟩
    · exact Or.inl ⟨_, _, Action.perform_bind_of_ok hpages _, hfaithful⟩
    · exact Or.inr ⟨hlarge, e, w', Action.perform_bind_of_error hfails _⟩
  · obtain ⟨pages, hpages, -, hitems⟩ := perform_pages_inMemory hlen pageSize
    rw [Repository.listBundles_eq_map_pages, map_eq_pure_bind, Action.perform_bind_of_ok hpages,
      hitems]
    rfl

end Scans

end Shared

end Store

namespace Sample

/-- The store with its two bundles.  Before the second read a third comes, and before the third read
the first is stamped, the second is written again, and a fourth comes. -/
def sharedStore : Store.Shared where
  store := store
  pending :=
    [[], [.bundle (.new "b3" "g1" "")],
      [.stamp "b1" time, .bundle (.new "b2" "g1" ""), .bundle (.new "b4" "g2" "")]]

end Sample

/-- A scan with one bundle on each page. -/
theorem Store.Shared.listBundles_spec_sample :
    Sample.sharedStore.store.bundleIds.Nodup ∧
      ∃ pages, (Repository.shared.pages 0).perform Sample.sharedStore =
          (.ok pages, Sample.sharedStore.after pages.length) ∧
        Sample.sharedStore.Faithful pages.length (pages.flatMap Page.items) := by
  have hids : Sample.sharedStore.store.bundleIds.Nodup := by decide
  have hlen : ¬ UInt64.size < Sample.sharedStore.settled.bundles.length := by decide +kernel
  obtain ⟨pages, hpages, -, hfaithful⟩ :=
    ((Shared.listBundles_spec hids).1 0).resolve_right fun h => hlen h.1
  exact ⟨hids, pages, hpages, hfaithful⟩

end Firewall
