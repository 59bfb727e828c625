/-
# Remote inventories

A remote inventory is asked over HTTP.  A query is posted as an expression; the reply is a page of
rows, and names a token if there are more.  A row may be sent as it is, or as a text that holds it; a
text that does not hold a document is a null row.

* `Inventory.Remote.Client` : a client for one inventory;
* `Inventory.Remote.Reply` : what comes of a request;
* `Inventory.Remote.walk` : the pages of a query, one after the other;
* `Inventory.Remote.Client.select` : a query to an aggregator.
-/
import Firewall.Inventory.Source

namespace Firewall

namespace Inventory

namespace Remote

/-! ## Settings and clients -/

/-- How a remote inventory is reached. -/
structure Settings where
  baseUrl : String
  apiToken : String
  defaultAggregator : String
  timeoutSecs : Nat
  deriving DecidableEq, Repr

/-- Settings as a document. -/
def Settings.toJson (s : Settings) : Json :=
  .object [("base_url", .string s.baseUrl), ("api_token", .string s.apiToken),
    ("default_aggregator", .string s.defaultAggregator), ("timeout_secs", Json.ofNat s.timeoutSecs)]

/-- Settings are read from their fields; the time-out has a default. -/
def Settings.reading : Json.Reading Settings := fun levels d => do
  let r ← Json.Record.ofDraft?
    ["base_url", "api_token", "default_aggregator", "timeout_secs"] false levels d
  let baseUrl ← r.field "base_url" Json.Reading.text
  let apiToken ← r.field "api_token" Json.Reading.text
  let defaultAggregator ← r.field "default_aggregator" Json.Reading.text
  let timeoutSecs ← r.fieldOr "timeout_secs" 30 (Json.Reading.natBelow UInt64.size)
  pure { baseUrl, apiToken, defaultAggregator, timeoutSecs }

/-- A client for one inventory. -/
structure Client where
  baseUrl : String
  /-- The text of the authorization header. -/
  authorization : String
  deriving DecidableEq, Repr

/-- Whether a character may stand in a header: any but control characters, except the tab. -/
def isHeaderChar (c : Char) : Bool := c = '\t' || (32 ≤ c.toNat && c.toNat ≠ 127)

/-- The client with the given settings; its token must fit into a header. -/
def Client.of (s : Settings) : Except Error Client :=
  if s.apiToken.toList.all isHeaderChar then
    .ok ⟨s.baseUrl, "Token " ++ s.apiToken⟩
  else .error (.configuration "Invalid API token: failed to parse header value")

/-! ## Requests and replies -/

/-- A request to an inventory. -/
structure Request where
  url : String
  authorization : String
  expression : String
  nextToken : Option String
  deriving DecidableEq, Repr

/-- The body of a request. -/
def Request.body (r : Request) : Json :=
  .object (("expression", .string r.expression) ::
    Json.memberOf "nextToken" .string r.nextToken)

/-- What comes of a request. -/
inductive Reply
  /-- The request could not be sent. -/
  | unsent
  /-- The connection was closed without a reply. -/
  | dropped
  | answered (status : Nat) (body : String)
  deriving DecidableEq, Repr

/-- A page of rows. -/
structure Page where
  results : List Json.Ordered
  nextToken : Option String

/-- A page is read from its fields, both of which may be left out. -/
def Page.reading : Json.Reading Page := fun levels d => do
  let r ← Json.Record.ofDraft? ["results", "nextToken"] false levels d
  let results ← r.fieldOr "results" [] (Json.Reading.listOf Json.Reading.raw)
  let nextToken ← r.fieldOr "nextToken" none (Json.Reading.nullable Json.Reading.text)
  pure { results, nextToken }

/-- The phrase that goes with a status. -/
def statusPhrase (status : Nat) : String :=
  let phrases : List (Nat × String) :=
    [(100, "Continue"), (101, "Switching Protocols"), (102, "Processing"), (200, "OK"),
      (201, "Created"), (202, "Accepted"), (203, "Non Authoritative Information"),
      (204, "No Content"), (205, "Reset Content"), (206, "Partial Content"),
      (207, "Multi-Status"), (208, "Already Reported"), (226, "IM Used"),
      (300, "Multiple Choices"), (301, "Moved Permanently"), (302, "Found"),
      (303, "See Other"), (304, "Not Modified"), (305, "Use Proxy"),
      (307, "Temporary Redirect"), (308, "Permanent Redirect"), (400, "Bad Request"),
      (401, "Unauthorized"), (402, "Payment Required"), (403, "Forbidden"),
      (404, "Not Found"), (405, "Method Not Allowed"), (406, "Not Acceptable"),
      (407, "Proxy Authentication Required"), (408, "Request Timeout"), (409, "Conflict"),
      (410, "Gone"), (411, "Length Required"), (412, "Precondition Failed"),
      (413, "Payload Too Large"), (414, "URI Too Long"), (415, "Unsupported Media Type"),
      (416, "Range Not Satisfiable"), (417, "Expectation Failed"), (418, "I'm a teapot"),
      (421, "Misdirected Request"), (422, "Unprocessable Entity"), (423, "Locked"),
      (424, "Failed Dependency"), (425, "Too Early"), (426, "Upgrade Required"),
      (428, "Precondition Required"), (429, "Too Many Requests"),
      (431, "Request Header Fields Too Large"), (451, "Unavailable For Legal Reasons"),
      (500, "Internal Server Error"), (501, "Not Implemented"), (502, "Bad Gateway"),
      (503, "Service Unavailable"), (504, "Gateway Timeout"),
      (505, "HTTP Version Not Supported"), (506, "Variant Also Negotiates"),
      (507, "Insufficient Storage"), (508, "Loop Detected"), (510, "Not Extended"),
      (511, "Network Authentication Required")]
  (phrases.lookup status).getD "<unknown status code>"

/-- The page that a reply holds. -/
def Reply.page : Reply → Except Error Page
  | unsent => .error (.inventory "Inventory API error: the request could not be sent")
  | dropped => .error (.inventory "Inventory API error: the connection was closed")
  | answered status body =>
    if status = 200 then
      match Json.Reading.ofText? Page.reading body with
      | some page => .ok page
      | none => .error (.inventory ("Invalid inventory response: " ++ Error.unreadable))
    else
      .error (.inventory
        ("Inventory API returned " ++ Nat.repr status ++ " " ++ statusPhrase status ++ ": " ++ body))

/-- The row that an entry of a page stands for. -/
def entryRow (entry : Json.Ordered) : Json :=
  match entry.doc with
  | .string text =>
    match Json.Ordered.ofText? text with
    | some row => row.doc
    | none => .null
  | doc => doc

/-- The rows of a page. -/
def Page.rows (p : Page) : List Json := p.results.map entryRow

/-- The token of the next page, if there is one; an empty token is none. -/
def Page.next? (p : Page) : Option String := p.nextToken.filter fun token => token ≠ ""

/-! ## Walking the pages -/

/-- The rows of all pages from a token on, and the requests that reached the inventory, given what
comes of each request in turn.  The first page without a token ends the walk, and so does the first
failure; when nothing more comes, requests can no longer be sent. -/
def walk (request : Option String → Request) :
    List Reply → Option String → Except Error (List Json) × List Request
  | [], _ => (Reply.unsent.page.map Page.rows, [])
  | reply :: replies, token =>
    let sent := if reply = .unsent then [] else [request token]
    match reply.page with
    | .error e => (.error e, sent)
    | .ok page =>
      match page.next? with
      | none => (.ok page.rows, sent)
      | some next =>
        let (rest, requests) := walk request replies (some next)
        (rest.map (page.rows ++ ·), sent ++ requests)

/-! ## Addresses -/

/-- Whether a byte stands for itself in a part of a path. -/
def isUnreserved (b : UInt8) : Bool :=
  let c := Char.ofNat b.toNat
  c.isAlphanum || c = '-' || c = '.' || c = '_' || c = '~'

/-- A hexadecimal digit in upper case. -/
def upperHex (n : Nat) : Char := if n < 10 then Char.ofNat (48 + n) else Char.ofNat (55 + n)

/-- A byte in a part of a path. -/
def percentByte (b : UInt8) : List Char :=
  if isUnreserved b then [Char.ofNat b.toNat]
  else ['%', upperHex (b.toNat / 16), upperHex (b.toNat % 16)]

/-- A text as part of a path. -/
def percentEncode (s : String) : String :=
  String.ofList ((s.toList.flatMap String.utf8EncodeChar).flatMap percentByte)

/-- A text without the slashes at its end. -/
def dropSlashes (s : String) : String :=
  String.ofList (s.toList.reverse.dropWhile fun c => c = '/').reverse

/-- The path at which an aggregator is queried, below the base of the inventory. -/
def selectPath (aggregator : String) : String :=
  "/aggregators/" ++ percentEncode aggregator ++ "/select"

namespace Client

/-- The request for a page of a query. -/
def request (c : Client) (aggregator : String) (query : Query) (token : Option String) :
    Request where
  url := dropSlashes c.baseUrl ++ selectPath aggregator
  authorization := c.authorization
  expression := query.expression
  nextToken := token

/-- A query to an aggregator, given what comes of each request in turn. -/
def select (c : Client) (aggregator : String) (query : Query) (replies : List Reply) :
    Except Error (List Json) × List Request :=
  walk (c.request aggregator query) replies none

end Client

end Remote

end Inventory

end Firewall
