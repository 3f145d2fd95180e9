import Reconciliation.Remote
import Reconciliation.Url

namespace Reconciliation

namespace Text

def base64Alphabet : List Char :=
  "ABCDEFGHIJKLMNOPQRSTUVWXYZabcdefghijklmnopqrstuvwxyz0123456789+/".toList

/-- The character for six bits of a number, counted from the lowest. -/
def base64Char (n place : Nat) : Char := base64Alphabet.getD (n / Nat.pow 64 place % 64) 'A'

/-- Three bytes in four characters, with padding at the end. -/
def base64 : List UInt8 → List Char
  | [] => []
  | [a] =>
    let n := a.toNat * 16
    [base64Char n 1, base64Char n 0, '=', '=']
  | [a, b] =>
    let n := (a.toNat * 256 + b.toNat) * 4
    [base64Char n 2, base64Char n 1, base64Char n 0, '=']
  | a :: b :: c :: rest =>
    let n := (a.toNat * 256 + b.toNat) * 256 + c.toNat
    base64Char n 3 :: base64Char n 2 :: base64Char n 1 :: base64Char n 0 :: base64 rest

end Text

namespace Http

inductive Method where
  | get
  | post
  | delete
deriving DecidableEq, Repr

def Method.text : Method → String
  | get => "GET"
  | post => "POST"
  | delete => "DELETE"

structure Request where
  method : Method
  url : Url
  authorization : Option String := none
  accept : String := "*/*"
  contentType : Option String := none
  body : String := ""

structure Response where
  status : Nat
  location : Option String := none
  body : List UInt8 := []
deriving DecidableEq

namespace Response

def isSuccess (r : Response) : Bool := 200 ≤ r.status && r.status < 300

def isRedirection (r : Response) : Bool := 300 ≤ r.status && r.status < 400

/-- The body as a text, whatever its bytes. -/
def text (r : Response) : String := Text.Utf8.decodeLossy r.body

/-- The location, if it is of visible characters. -/
def visibleLocation (r : Response) : Option String :=
  r.location.filter (·.toList.all fun c => c = '\t' || (0x20 ≤ c.toNat && c.toNat < 0x7f))

end Response

def reasons : List (Nat × String) :=
  [(100, "Continue"), (101, "Switching Protocols"), (102, "Processing"), (103, "Early Hints"),
   (200, "OK"), (201, "Created"), (202, "Accepted"), (203, "Non Authoritative Information"),
   (204, "No Content"), (205, "Reset Content"), (206, "Partial Content"), (207, "Multi-Status"),
   (208, "Already Reported"), (226, "IM Used"), (300, "Multiple Choices"),
   (301, "Moved Permanently"), (302, "Found"), (303, "See Other"), (304, "Not Modified"),
   (305, "Use Proxy"), (307, "Temporary Redirect"), (308, "Permanent Redirect"),
   (400, "Bad Request"), (401, "Unauthorized"), (402, "Payment Required"), (403, "Forbidden"),
   (404, "Not Found"), (405, "Method Not Allowed"), (406, "Not Acceptable"),
   (407, "Proxy Authentication Required"), (408, "Request Timeout"), (409, "Conflict"),
   (410, "Gone"), (411, "Length Required"), (412, "Precondition Failed"),
   (413, "Payload Too Large"), (414, "URI Too Long"), (415, "Unsupported Media Type"),
   (416, "Range Not Satisfiable"), (417, "Expectation Failed"), (418, "I'm a teapot"),
   (421, "Misdirected Request"), (422, "Unprocessable Entity"), (423, "Locked"),
   (424, "Failed Dependency"), (425, "Too Early"), (426, "Upgrade Required"),
   (428, "Precondition Required"), (429, "Too Many Requests"),
   (431, "Request Header Fields Too Large"), (451, "Unavailable For Legal Reasons"),
   (500, "Internal Server Error"), (501, "Not Implemented"), (502, "Bad Gateway"),
   (503, "Service Unavailable"), (504, "Gateway Timeout"), (505, "HTTP Version Not Supported"),
   (506, "Variant Also Negotiates"), (507, "Insufficient Storage"), (508, "Loop Detected"),
   (510, "Not Extended"), (511, "Network Authentication Required")]

def statusText (code : Nat) : String :=
  toString code ++ " " ++ (reasons.lookup code).getD "<unknown status code>"

/-- The URL of a text. It has to have a host. -/
def target (address : String) : Except HttpFailure Url :=
  match Url.parse? address with
  | none => .error .unbuildable
  | some u => if u.host.isSome then .ok u else .error (.forbiddenScheme u.text)

/-- Header values hold no controls but the tab. -/
def isHeaderText (s : String) : Bool :=
  s.toList.all fun c => c = '\t' || (0x20 ≤ c.toNat && c.toNat ≠ 0x7f)

def request (method : Method) (address authorization : String) : Except HttpFailure Request := do
  let url ← target address
  if isHeaderText authorization then return { method, url, authorization := some authorization }
  else throw .unbuildable

def bearer (token : String) : String := "Bearer " ++ token

def basic (user password : String) : String :=
  "Basic " ++ String.ofList (Text.base64 (Text.Utf8.encode (user ++ ":" ++ password)))

namespace Request

def accepting (type : String) (r : Request) : Request := { r with accept := type }

def withBody (type body : String) (r : Request) : Request :=
  { r with contentType := some type, body }

def withForm (pairs : List (String × String)) (r : Request) : Request :=
  r.withBody "application/x-www-form-urlencoded" (Url.formEncode pairs)

def withQuery (pairs : List (String × String)) (r : Request) : Request :=
  { r with url := r.url.addQuery pairs }

end Request

/-- A base address and a path with one slash between them. -/
def joinPath (base path : String) : String :=
  let trimmed := (base.toList.reverse.dropWhile (· = '/')).reverse
  String.ofList trimmed ++ "/" ++ String.ofList (path.toList.dropWhile (· = '/'))

end Http

end Reconciliation
