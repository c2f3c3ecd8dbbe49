import ShopLint.Collection.Selection
import ShopLint.Report.Encoding
import ShopLint.Url
import ShopLint.Xml.Document

/-!
Fixers: who can tell which rules can be fixed without a person. A fixer is either a list known
beforehand or a service that is asked over the network; the network itself is a parameter.
-/

namespace ShopLint

namespace Fixer

structure Request where
  method : String
  url : String
  accept : String
  authorization : String
  deriving DecidableEq, Repr

structure Response where
  status : Int
  contentType : String
  body : String
  deriving DecidableEq, Repr

/-- Answers requests, or tells why it cannot. -/
abbrev Network := Request → Except String Response

inductive Error
  | unavailable (message : String)
  | noUrl
  | badUrl (error : Url.Error)
  | unreachable (url cause : String)
  | undecodable
  | refused (status : Int) (body : String)
  deriving DecidableEq, Repr

def Error.message : Error → String
  | unavailable message => message
  | noUrl => "fixer url is not configured"
  | badUrl error => s!"failed to query fixer capabilities: {error.message}"
  | unreachable url cause => s!"failed to query fixer capabilities: Get {Text.quote url}: {cause}"
  | undecodable => "failed to query fixer capabilities: the answer cannot be decoded"
  | refused status body => s!"fixer returned status code {status}: {body}"

/-- The rules named, without blanks around them and in order. -/
def ruleSet (rules : List String) : List String :=
  sortedSet ((rules.map Text.trim).filter (· ≠ ""))

/-- Texts read over older ones: `null` leaves the one in its place. -/
def readTexts (old : List String) : List Json.Value → Option (List String)
  | [] => some []
  | v :: vs => do return (← readText (old.headD "") v) :: (← readTexts old.tail vs)

def readRules (old : List String) (key : String) (v : Json.Value) : Option (List String) :=
  match fieldOf ["rules"] key, v with
  | none, _ => some old
  | some _, .null => some []
  | some _, .array items => readTexts old items
  | some _, _ => none

/-- The member `rules` of an answer in JSON. -/
def jsonRules? (body : String) : Option (List String) := do
  readObject readRules [] (← Json.parse? body.toList)

/-- The texts of the elements `Rules` in the first element of an answer in XML. -/
def xmlRules? (body : String) : Option (List String) := do
  let answer ← (Xml.elementsOf (← Xml.parse? body.toList)).head?
  return (answer.childrenNamed "Rules").map Xml.Element.text

/-- The media types after `application/` or `text/`, wherever these stand. -/
def mediaTypes : List Char → List (List Char)
  | [] => []
  | c :: rest =>
    let after := ["application/", "text/"].filterMap fun lead => Chars.after? lead.toList (c :: rest)
    after ++ mediaTypes rest

/-- The text goes on with the name, and then ends or has parameters. -/
def namesType (name text : List Char) : Bool :=
  match Chars.after? name text with
  | some rest => rest.isEmpty || rest.head? = some ';'
  | none => false

/-- Some end of the text goes on so. -/
def namesTypeWithin (name : List Char) : List Char → Bool
  | [] => false
  | c :: rest => namesType name (c :: rest) || namesTypeWithin name rest

def isJsonType (contentType : String) : Bool :=
  (mediaTypes (Text.toLower contentType).toList).any fun media =>
    namesType "json".toList media || "json-".toList.isPrefixOf media || namesTypeWithin "+json".toList media

def isXmlType (contentType : String) : Bool :=
  (mediaTypes (Text.toLower contentType).toList).any fun media =>
    namesType "xml".toList media || namesTypeWithin "+xml".toList media

def okStatus : Int := 200

/-- The answer claims success and to have content. -/
def Response.isSuccess (r : Response) : Bool := 199 < r.status && r.status < 300 && r.status ≠ 204

/-- The rules that the content names. None are named unless it is the content of a success, in JSON or
XML; content that is not what it claims to be cannot be understood. -/
def Response.decoded? (r : Response) : Option (List String) :=
  if !r.isSuccess then some []
  else if isJsonType r.contentType then jsonRules? r.body
  else if isXmlType r.contentType then xmlRules? r.body
  else some []

/-- The rules in an answer. Content that cannot be understood counts before the status. -/
def Response.rules (r : Response) : Except Error (List String) :=
  match r.decoded? with
  | none => .error .undecodable
  | some rules =>
    if r.status = okStatus then .ok (ruleSet rules) else .error (.refused r.status (Text.trim r.body))

end Fixer

inductive Fixer
  | known (rules : List String)
  | unavailable (message : String)
  | service (url token : String)
  deriving DecidableEq, Repr

namespace Fixer

/-- The question to a service, if it has an address. -/
def request (url token : String) : Except Error Request :=
  let base := Text.trimEndChar '/' url
  if base = "" then .error .noUrl
  else
    let url := base ++ "/rules"
    match Url.check url with
    | .error e => .error (.badUrl e)
    | .ok () =>
      .ok { method := "GET", url := url, accept := "application/json"
            authorization := if token = "" then "" else "Token " ++ token }

/-- The requests that asking for the rules makes. -/
def requests : Fixer → List Request
  | service url token =>
    match request url token with
    | .ok r => [r]
    | .error _ => []
  | _ => []

/-- The rules that can be fixed. -/
def fixableRules (network : Network) : Fixer → Except Error (List String)
  | known rules => .ok (ruleSet rules)
  | unavailable message => .error (.unavailable message)
  | service url token => do
    let r ← request url token
    match network r with
    | .error cause => .error (.unreachable r.url cause)
    | .ok response => response.rules

end Fixer

end ShopLint
