/-
# Repositories

A repository is what evaluation and scheduling need of a store, given as actions over a world.  It is
read by pages, by ids, and by bundles, and takes back the rules that were evaluated and the times at
which bundles were brought up to date.

* `Store.Repository` : repositories;
* `Store.Repository.listBundles` : all bundles, page after page;
* `Store.Repository.inMemory` : a snapshot as a repository;
* `Store.Repository.within` : a repository over a part of the world.
-/
import Firewall.Action
import Firewall.Store.Snapshot

namespace Firewall

namespace Store

/-- A store over a world of type `σ`. -/
structure Repository (σ : Type) where
  /-- At most as many pages as this can be read one after the other. -/
  pageBound : σ → Nat
  scan : Option String → Nat → Action σ Page
  bundle? : String → Action σ (Option Bundle)
  rulesOf : String → Action σ (List Rule)
  objectsWith : List String → Action σ (List FlowObject)
  putRules : List Rule → Action σ Unit
  stamp : String → Timestamp → Action σ Unit

/-- The number of bundles on a page when all bundles are listed. -/
def pageSize : Nat := 100

namespace Repository

variable {σ τ : Type}

/-- The bundles from a page on, of at most `pages` pages. -/
def listFrom (r : Repository σ) : Nat → Option String → Action σ (List Bundle)
  | 0, _ => pure []
  | pages + 1, token => do
    let page ← r.scan token pageSize
    match page.nextToken with
    | some next => do
      let rest ← r.listFrom pages (some next)
      pure (page.items ++ rest)
    | none => pure page.items

/-- All bundles in storage order. -/
def listBundles (r : Repository σ) : Action σ (List Bundle) :=
  Action.ofFun fun s => (r.listFrom (r.pageBound s) none).perform s

/-- A snapshot as a repository.  Its pages are not more than its bundles, or one if it has none. -/
def inMemory : Repository Snapshot where
  pageBound s := s.bundles.length + 1
  scan token limit := Action.read fun s => s.page token limit
  bundle? id := Action.read fun s => .ok (s.bundle? id)
  rulesOf bundleId := Action.read fun s => .ok (s.rulesOf bundleId)
  objectsWith ids := Action.read fun s => .ok (s.objectsWith ids)
  putRules rules := Action.ofFun fun s => (.ok (), s.putRules rules)
  stamp id time := Action.ofFun fun s =>
    match s.stamp id time with
    | .ok s' => (.ok (), s')
    | .error e => (.error e, s)

/-- A repository over a part of the world. -/
def within (view : σ → τ) (update : τ → σ → σ) (r : Repository τ) : Repository σ where
  pageBound s := r.pageBound (view s)
  scan token limit := (r.scan token limit).within view update
  bundle? id := (r.bundle? id).within view update
  rulesOf bundleId := (r.rulesOf bundleId).within view update
  objectsWith ids := (r.objectsWith ids).within view update
  putRules rules := (r.putRules rules).within view update
  stamp id time := (r.stamp id time).within view update

end Repository

end Store

end Firewall
