/-
# The pages of a remote inventory

A query to a remote inventory is answered page by page.  Each request hands back the token of the page
before it, and the walk ends at the first page without a token, or at the first failure.  What comes of
it is all rows of all pages or, if anything failed, none.  So it does not matter where the pages were
cut, nor which entries were sent as texts.

* `Inventory.Remote.SentAs`, `entryRow_of_sentAs` : an entry and the ways to send it;
* `Inventory.Remote.Page.ofText?_text` : a page is read as it was written;
* `Inventory.Remote.Reply.page_cases` : a reply gives a page or fails;
* `Inventory.Remote.Walks`, `exists_walks` : what was asked, what was given, and how it ended;
* `Inventory.Remote.Delivers.walk_eq` : all rows of all pages;
* `Inventory.Remote.Client.select_spec` : queries to an aggregator.
-/
import Mathlib.Data.List.Forall2
import Firewall.Inventory.Remote
import Firewall.Proofs.Json.Ordered
import Firewall.Proofs.Json.Record

namespace Firewall

namespace Inventory

namespace Remote

/-! ## Entries -/

/-- The entry that is a text. -/
def textEntry (text : String) : Json.Ordered := ⟨.string text, rfl⟩

/-- The second entry is a way to send the first: as it is, or, unless it is a text, as some text that
holds it. -/
inductive SentAs : Json.Ordered → Json.Ordered → Prop
  | inline (entry : Json.Ordered) : SentAs entry entry
  | text {entry : Json.Ordered} {text : String} (hplain : entry.doc.text? = none)
      (h : Json.Ordered.ofText? text = some entry) : SentAs entry (textEntry text)

/-- **A document is held by its own text**, in any style.  Floating-point numbers are not written back
digit by digit, and a document that nests too deep is not read. -/
theorem ofText?_write (style : Json.Style) {entry : Json.Ordered}
    (hintegral : entry.doc.isIntegral = true) (hdepth : entry.doc.depth ≤ Json.nestingLimit) :
    Json.Ordered.ofText? (String.ofList (entry.doc.write style 0 [])) = some entry := by
  rw [Json.Ordered.ofText?, Json.Draft.ofText?, String.toList_ofList,
    Json.Draft.ofChars?_write style hintegral, Option.bind_some]
  exact Json.Reading.raw_ofJson entry hdepth

/-- An entry that is not a text stands for itself. -/
theorem entryRow_of_plain {entry : Json.Ordered} (h : entry.doc.text? = none) :
    entryRow entry = entry.doc := by
  unfold entryRow
  split
  · next text heq =>
    rw [heq] at h
    cases h
  · rfl

theorem entryRow_textEntry {text : String} {row : Json.Ordered}
    (h : Json.Ordered.ofText? text = some row) : entryRow (textEntry text) = row.doc := by
  simp only [entryRow, textEntry, h]

/-- A text that holds no document is a null row. -/
theorem entryRow_textEntry_of_unreadable {text : String}
    (h : Json.Ordered.ofText? text = none) : entryRow (textEntry text) = .null := by
  simp only [entryRow, textEntry, h]

/-- **An entry stands for the same row**, in whichever way it is sent. -/
theorem entryRow_of_sentAs {entry sent : Json.Ordered} (h : SentAs entry sent) :
    entryRow sent = entryRow entry := by
  cases h with
  | inline => rfl
  | text hplain htext => rw [entryRow_textEntry htext, entryRow_of_plain hplain]

/-! ## Pages -/

namespace Page

/-- There is no page after this one: the token is missing, or empty. -/
def IsLast (p : Page) : Prop := p.nextToken = none ∨ p.nextToken = some ""

/-- The next page is asked for with a token. -/
def HandsOver (p : Page) (token : String) : Prop := p.nextToken = some token ∧ token ≠ ""

theorem next?_eq_none_iff {p : Page} : p.next? = none ↔ p.IsLast := by
  unfold next? IsLast
  cases p.nextToken <;> simp

theorem next?_eq_some_iff {p : Page} {token : String} :
    p.next? = some token ↔ p.HandsOver token := by
  unfold next? HandsOver
  rw [Option.filter_eq_some_iff, decide_eq_true_eq]

/-- A page as a document.  A missing token is left out, or written as null. -/
def toJson (bare : Bool) (p : Page) : Json :=
  .object (("results", .array (p.results.map fun entry => entry.doc)) ::
    if bare then Json.memberOf "nextToken" .string p.nextToken
    else [("nextToken", Json.ofOption .string p.nextToken)])

/-- The entries can be written into a page and read back from it: there are no floating-point numbers,
and each leaves two levels of nesting to the page. -/
def Sendable (p : Page) : Prop :=
  ∀ entry ∈ p.results, entry.doc.isIntegral = true ∧ entry.doc.depth + 2 ≤ Json.nestingLimit

instance : DecidablePred Sendable := fun p =>
  inferInstanceAs (Decidable (∀ entry ∈ p.results, _))

variable {p : Page}

theorem isIntegral_toJson (h : p.Sendable) (bare : Bool) : (p.toJson bare).isIntegral = true := by
  have hresults : (Json.array (p.results.map fun entry => entry.doc)).isIntegral = true :=
    Json.allIntegral_map fun entry hentry => (h entry hentry).1
  unfold toJson Json.isIntegral
  rw [Json.membersIntegral, hresults, Bool.true_and]
  split
  · exact Json.membersIntegral_memberOf fun _ _ => rfl
  · cases p.nextToken <;> rfl

theorem reading_toJson (h : p.Sendable) (bare : Bool) :
    Page.reading Json.nestingLimit (Json.Draft.ofJson (p.toJson bare)) = some p := by
  -- one level for the page and one for its results leave 125 to the entries
  have hentries : ∀ entry ∈ p.results,
      Json.Reading.raw 125 (Json.Draft.ofJson entry.doc) = some entry := by
    intro entry hentry
    have hdepth := (h entry hentry).2
    exact Json.Reading.raw_ofJson entry (Nat.le_of_add_le_add_right hdepth)
  have hresults := Json.Reading.listOf_ofJson hentries
  obtain ⟨members, hmembers, hkeys, hfirst, hsecond⟩ : ∃ members,
      p.toJson bare = .object members ∧
      (members.map (·.1)).Sublist ["results", "nextToken"] ∧
      members.lookup "results" = some (.array (p.results.map fun entry => entry.doc)) ∧
      (Json.Record.of 126 members).fieldOr "nextToken" none
        (Json.Reading.nullable Json.Reading.text) = some p.nextToken := by
    refine ⟨_, rfl, ?_, rfl, ?_⟩
    · cases bare <;> cases p.nextToken <;> simp [Json.memberOf]
    · cases bare <;> cases p.nextToken <;> rfl
  rw [hmembers, Page.reading, Json.nestingLimit,
    Json.Record.ofDraft?_ofJson (by decide) hkeys false 126]
  simp only [Option.bind_eq_bind, Option.bind_some, Json.Record.fieldOr_of hfirst hresults, hsecond]
  rfl

/-- A page as a text. -/
def text (style : Json.Style) (bare : Bool) (p : Page) : String :=
  String.ofList ((p.toJson bare).write style 0 [])

/-- **A page is read as it was written.** -/
theorem ofText?_text (h : p.Sendable) (style : Json.Style) (bare : Bool) :
    Json.Reading.ofText? Page.reading (p.text style bare) = some p := by
  rw [Json.Reading.ofText?, Json.Draft.ofText?, text, String.toList_ofList,
    Json.Draft.ofChars?_write style (isIntegral_toJson h bare), Option.bind_some]
  exact reading_toJson h bare

end Page

/-! ## Replies -/

namespace Reply

/-- The reply holds a page. -/
inductive Gives : Reply → Page → Prop
  | page {body : String} {page : Page}
      (h : Json.Reading.ofText? Page.reading body = some page) : Gives (.answered 200 body) page

/-- The reply is a failure. -/
inductive Fails : Reply → Prop
  | unsent : Fails .unsent
  | dropped : Fails .dropped
  | status {status : Nat} {body : String} (h : status ≠ 200) : Fails (.answered status body)
  | body {body : String} (h : Json.Reading.ofText? Page.reading body = none) :
      Fails (.answered 200 body)

theorem Gives.page_eq {reply : Reply} {page : Page} (h : reply.Gives page) :
    reply.page = .ok page := by
  cases h with
  | page h => simp only [Reply.page, if_pos, h]

/-- A reply that fails is an error of the inventory. -/
theorem Fails.page_eq {reply : Reply} (h : reply.Fails) :
    ∃ message, reply.page = .error (.inventory message) := by
  cases h with
  | unsent => exact ⟨_, rfl⟩
  | dropped => exact ⟨_, rfl⟩
  | status h => exact ⟨_, if_neg h⟩
  | body h =>
    refine ⟨"Invalid inventory response: " ++ Error.unreadable, ?_⟩
    simp only [Reply.page, if_pos, h]

/-- **A reply gives a page or fails.** -/
theorem page_cases (reply : Reply) : (∃ page, reply.Gives page) ∨ reply.Fails := by
  cases reply with
  | unsent => exact Or.inr .unsent
  | dropped => exact Or.inr .dropped
  | answered status body =>
    by_cases hstatus : status = 200
    · subst hstatus
      rcases hbody : Json.Reading.ofText? Page.reading body with - | page
      · exact Or.inr (.body hbody)
      · exact Or.inl ⟨page, .page hbody⟩
    · exact Or.inr (.status hstatus)

theorem Gives.ne_unsent {reply : Reply} {page : Page} (h : reply.Gives page) :
    reply ≠ .unsent := by
  rintro rfl
  cases h

end Reply

/-! ## Walks -/

/-- The tokens of the requests of a walk: the one that it starts with, and then the token of each page
that is followed by another. -/
def tokensAsked (token : Option String) (earlier : List (Page × String)) : List (Option String) :=
  token :: earlier.map fun p => some p.2

theorem tokensAsked_cons (token : Option String) (p : Page × String)
    (earlier : List (Page × String)) :
    tokensAsked token (p :: earlier) = token :: tokensAsked (some p.2) earlier := rfl

/-- A walk over replies, starting with a token: the pages before its final reply, each with the
token that it handed over, and that final reply. -/
structure Walks (request : Option String → Request) (token : Option String) (replies : List Reply)
    (earlier : List (Page × String)) (final : Reply)
    (outcome : Except Error (List Json) × List Request) : Prop where
  handed : List.Forall₂ (fun reply p => reply.Gives p.1 ∧ p.1.HandsOver p.2)
    (replies.take earlier.length) earlier
  /-- When nothing more comes, a request can no longer be sent. -/
  final_eq : final = replies[earlier.length]?.getD .unsent
  /-- A request that could not be sent is not among those that reached the inventory. -/
  sent : outcome.2 = (if final = .unsent then (tokensAsked token earlier).dropLast
    else tokensAsked token earlier).map request
  ended : (∃ page, final.Gives page ∧ page.IsLast ∧
      outcome.1 = .ok ((earlier.map (·.1) ++ [page]).flatMap Page.rows)) ∨
    final.Fails ∧ ∃ message, outcome.1 = .error (.inventory message)

section Walk

variable (request : Option String → Request) (token : Option String)

/-- A failure ends the walk. -/
theorem walks_of_fails {reply : Reply} (hfails : reply.Fails) (replies : List Reply) :
    Walks request token (reply :: replies) [] reply
      (walk request (reply :: replies) token) := by
  obtain ⟨message, herror⟩ := hfails.page_eq
  have hwalk : walk request (reply :: replies) token =
      (.error (.inventory message), if reply = .unsent then [] else [request token]) := by
    rw [walk]
    simp only [herror]
  rw [hwalk]
  refine ⟨.nil, rfl, ?_, Or.inr ⟨hfails, message, rfl⟩⟩
  split <;> rfl

/-- A page without a token ends the walk. -/
theorem walk_of_isLast {reply : Reply} {page : Page} (hgives : reply.Gives page)
    (hlast : page.IsLast) (replies : List Reply) :
    walk request (reply :: replies) token = (.ok page.rows, [request token]) := by
  rw [walk, if_neg hgives.ne_unsent]
  simp only [hgives.page_eq, Page.next?_eq_none_iff.2 hlast]

/-- A page with a token is followed by a walk that starts with this token. -/
theorem walk_of_handsOver {reply : Reply} {page : Page} {next : String}
    (hgives : reply.Gives page) (hnext : page.HandsOver next) (replies : List Reply) :
    walk request (reply :: replies) token =
      ((walk request replies (some next)).1.map (page.rows ++ ·),
        request token :: (walk request replies (some next)).2) := by
  rw [walk, if_neg hgives.ne_unsent]
  simp only [hgives.page_eq, Page.next?_eq_some_iff.2 hnext, List.singleton_append]

theorem walks_of_isLast {reply : Reply} {page : Page} (hgives : reply.Gives page)
    (hlast : page.IsLast) (replies : List Reply) :
    Walks request token (reply :: replies) [] reply (walk request (reply :: replies) token) := by
  rw [walk_of_isLast request token hgives hlast]
  refine ⟨.nil, rfl, ?_, Or.inl ⟨page, hgives, hlast, ?_⟩⟩
  · rw [if_neg hgives.ne_unsent]
    rfl
  · simp

/-- A page with a token in front of the walk that starts with this token. -/
theorem walks_of_handsOver {reply : Reply} {page : Page} {next : String}
    (hgives : reply.Gives page) (hnext : page.HandsOver next) {replies : List Reply}
    {earlier : List (Page × String)} {final : Reply}
    (hrest : Walks request (some next) replies earlier final
      (walk request replies (some next))) :
    Walks request token (reply :: replies) ((page, next) :: earlier) final
      (walk request (reply :: replies) token) := by
  rw [walk_of_handsOver request token hgives hnext]
  refine ⟨.cons ⟨hgives, hnext⟩ hrest.handed, ?_, ?_, ?_⟩
  · rw [hrest.final_eq]
    rfl
  · rw [hrest.sent, tokensAsked_cons]
    split <;> rfl
  · rcases hrest.ended with ⟨last, hlast, hend, hrows⟩ | ⟨hfails, message, herror⟩
    · refine Or.inl ⟨last, hlast, hend, ?_⟩
      rw [hrows]
      rfl
    · refine Or.inr ⟨hfails, message, ?_⟩
      rw [herror]
      rfl

/-- **Every walk is of this form**: it goes from page to page, and ends at the first page without a
token or at the first failure. -/
theorem exists_walks (replies : List Reply) :
    ∃ earlier final, Walks request token replies earlier final (walk request replies token) := by
  induction replies generalizing token with
  | nil => exact ⟨[], .unsent, .nil, rfl, rfl, Or.inr ⟨.unsent, _, rfl⟩⟩
  | cons reply replies ih =>
    rcases reply.page_cases with ⟨page, hgives⟩ | hfails
    · rcases hnext : page.next? with - | next
      · have hlast := Page.next?_eq_none_iff.1 hnext
        exact ⟨[], reply, walks_of_isLast request token hgives hlast replies⟩
      · obtain ⟨earlier, final, hrest⟩ := ih (some next)
        have hnext := Page.next?_eq_some_iff.1 hnext
        exact ⟨(page, next) :: earlier, final,
          walks_of_handsOver request token hgives hnext hrest⟩
    · exact ⟨[], reply, walks_of_fails request token hfails replies⟩

/-! ## Delivered pages -/

/-- The replies deliver these pages: each but the last hands over a token, and the last one does not.
What would have come after it does not matter. -/
inductive Delivers : List Reply → List Page → Prop
  | last {reply : Reply} {page : Page} (hgives : reply.Gives page) (hlast : page.IsLast)
      (replies : List Reply) : Delivers (reply :: replies) [page]
  | more {reply : Reply} {replies : List Reply} {page : Page} {pages : List Page} {next : String}
      (hgives : reply.Gives page) (hnext : page.HandsOver next) (hrest : Delivers replies pages) :
      Delivers (reply :: replies) (page :: pages)

/-- **Delivered pages are put together**: the walk over them gives all their rows. -/
theorem Delivers.walk_eq {replies : List Reply} {pages : List Page} (h : Delivers replies pages) :
    (walk request replies token).1 = .ok (pages.flatMap Page.rows) := by
  induction h generalizing token with
  | last hgives hlast replies =>
    rw [walk_of_isLast request token hgives hlast, List.flatMap_singleton]
  | more hgives hnext _ ih =>
    rw [walk_of_handsOver request token hgives hnext]
    simp only [ih]
    rfl

end Walk

/-- The rows of pages are those of the entries, in whichever ways these were sent. -/
theorem flatMap_rows_of_sentAs {entries : List Json.Ordered} {pages : List Page}
    (h : List.Forall₂ SentAs entries (pages.flatMap Page.results)) :
    pages.flatMap Page.rows = entries.map entryRow := by
  have hrows : pages.flatMap Page.rows = (pages.flatMap Page.results).map entryRow :=
    (List.map_flatMap ..).symm
  rw [hrows]
  generalize pages.flatMap Page.results = sent at h
  induction h with
  | nil => rfl
  | cons hsent _ ih => rw [List.map_cons, List.map_cons, entryRow_of_sentAs hsent, ih]

/-! ## Queries -/

/-- **A query walks the pages of an inventory.**  Its requests differ in their tokens only: the first
has none, each other has the token of the page before it, and none follows the first page without a
token or the first failure.  A query that succeeds gives all rows of all pages, and one that fails gives
none.  So the rows of a list of entries are the same however the list is cut into pages, and whichever
entries are sent as texts; pages and entries can be written in any style, and a text that cannot be read
stands for null. -/
theorem Client.select_spec (c : Client) (aggregator : String) (query : Query) :
    (∀ replies, ∃ earlier final,
      Walks (c.request aggregator query) none replies earlier final
        (c.select aggregator query replies)) ∧
    (∀ replies, ∀ request ∈ (c.select aggregator query replies).2,
      request.url = dropSlashes c.baseUrl ++ selectPath aggregator ∧
        request.expression = query.expression ∧ request.authorization = c.authorization) ∧
    (∀ replies pages entries, Delivers replies pages →
      List.Forall₂ SentAs entries (pages.flatMap Page.results) →
      (c.select aggregator query replies).1 = .ok (entries.map entryRow)) ∧
    (∀ page : Page, page.Sendable → ∀ style bare,
      (Reply.answered 200 (page.text style bare)).Gives page) ∧
    (∀ entry : Json.Ordered, entry.doc.text? = none → entry.doc.isIntegral = true →
      entry.doc.depth ≤ Json.nestingLimit → ∀ style,
        SentAs entry (textEntry (String.ofList (entry.doc.write style 0 [])))) ∧
    ∀ text, Json.Ordered.ofText? text = none → entryRow (textEntry text) = .null := by
  refine ⟨fun replies => exists_walks _ _ _, fun replies request hrequest => ?_,
    fun replies pages entries hpages hentries => ?_,
    fun page hpage style bare => .page (Page.ofText?_text hpage style bare),
    fun entry hplain hintegral hdepth style => .text hplain (ofText?_write style hintegral hdepth),
    fun text htext => entryRow_textEntry_of_unreadable htext⟩
  · obtain ⟨earlier, final, hwalks⟩ := exists_walks (c.request aggregator query) none replies
    rw [select, hwalks.sent] at hrequest
    obtain ⟨token, -, rfl⟩ := List.mem_map.1 hrequest
    exact ⟨rfl, rfl, rfl⟩
  · rw [select, hpages.walk_eq, flatMap_rows_of_sentAs hentries]

/-! ## Two ways to send the same entries -/

namespace Sample

/-- A machine, an item that is false, and a text that holds nothing. -/
def entries : List Json.Ordered :=
  [⟨.object [("resourceId", .string "i-1")], by decide⟩, ⟨.bool false, rfl⟩, textEntry "oops"]

/-- All entries in one page. -/
def whole : Page := ⟨entries, none⟩

/-- The machine is sent as a text, and there is more to come. -/
def first : Page where
  results := [textEntry
    (String.ofList ((Json.object [("resourceId", .string "i-1")]).write .compact 0 []))]
  nextToken := some "t"

/-- The other entries; an empty token ends the walk. -/
def second : Page := ⟨[⟨.bool false, rfl⟩, textEntry "oops"], some ""⟩

/-- A client, and a query for everything. -/
def client : Client := ⟨"https://inventory/", "Token secret"⟩

def everything : Query := ⟨["resourceId"], [], []⟩

end Sample

/-- Entries in one page, and the same entries in two. -/
theorem Client.select_spec_cut :
    (Sample.client.select "all" Sample.everything
        [.answered 200 (Sample.whole.text .indented true)]).1 =
      .ok [.object [("resourceId", .string "i-1")], .bool false, .null] ∧
    (Sample.client.select "all" Sample.everything
        [.answered 200 (Sample.first.text .compact false),
          .answered 200 (Sample.second.text .compact false)]).1 =
      .ok [.object [("resourceId", .string "i-1")], .bool false, .null] := by
  obtain ⟨-, -, hrows, hgives, hwritten, hnull⟩ :=
    Client.select_spec Sample.client "all" Sample.everything
  have hentries : Sample.entries.map entryRow =
      [.object [("resourceId", .string "i-1")], .bool false, .null] := by
    rw [Sample.entries, List.map_cons, List.map_cons, List.map_cons, hnull "oops" (by decide +kernel)]
    rfl
  rw [← hentries]
  refine ⟨hrows _ [Sample.whole] _ ?_ ?_, hrows _ [Sample.first, Sample.second] _ ?_ ?_⟩
  · exact .last (hgives _ (by decide) _ _) (Or.inl rfl) []
  · exact .cons (.inline _) (.cons (.inline _) (.cons (.inline _) .nil))
  · exact .more (hgives _ (by decide) _ _) ⟨rfl, by decide⟩
      (.last (hgives _ (by decide) _ _) (Or.inr rfl) [])
  · exact .cons (hwritten _ rfl rfl (by decide) .compact) (.cons (.inline _) (.cons (.inline _) .nil))

end Remote

end Inventory

end Firewall
