import VoiceOrder.Shared.UrlParser
import VoiceOrder.Shared.Types

/-! # Images of Odoo

The public image route of Odoo, fetched on behalf of a browser. The path and the query pass
through; anything that is no raster image of a bearable size is refused. -/

namespace VoiceOrder.Odoo

open UrlPath

/-- A failure, by the way it is answered. -/
inductive Failure where
  | notFound (message : String)
  /-- Reported by Odoo, or by the transport reaching it. -/
  | odoo (message : String)
  | unexpected (message : String)
  deriving DecidableEq, Repr

def maxImageBytes : ℕ := 5 * 1024 * 1024

/-- The only path of Odoo that is fetched. -/
def imagePathPrefix : List Char := "/web/image/".toList

def svgMediaType : List Char := "image/svg+xml".toList

structure CacheHeaders where
  etag : Option String
  cacheControl : Option String
  deriving DecidableEq, Repr

inductive ProxiedImage where
  | notModified (cacheHeaders : CacheHeaders)
  | image (bytes : List UInt8) (contentType : String) (cacheHeaders : CacheHeaders)
  deriving DecidableEq, Repr

/-- A body as it arrives, and why it breaks off, if it does. -/
structure ResponseBody where
  chunks : List (List UInt8)
  failure : Option String

/-- What a fetch is answered. -/
structure Response where
  status : ℕ
  cacheHeaders : CacheHeaders
  contentType : Option String
  contentLength : Option String
  body : Option ResponseBody

/-- What is fetched, and with which headers. -/
structure Fetch where
  url : Url
  database : Option String
  ifNoneMatch : Option String
  deriving DecidableEq, Repr

structure HttpOdooImageClient where
  baseUrl : List Char
  database : String

def trim (text : List Char) : List Char :=
  (text.dropWhile isWhiteSpace).rdropWhile isWhiteSpace

/-- The declared size of the body, unless it is absent or no plain number. -/
def contentLengthOf (res : Response) : Option ℕ :=
  res.contentLength.bind fun raw =>
    let digits := trim raw.toList
    if digits ≠ [] ∧ digits.all Char.isDigit then
      some (digits.foldl (fun value digit => 10 * value + (digit.toNat - '0'.toNat)) 0)
    else none

def tooLarge (size : String) : Failure := .odoo (("odoo image is too large (" ++ size) ++ " bytes)")

/-- The cap binds before a chunk is kept. -/
def readChunks (held : List UInt8) (failure : Option String) : List (List UInt8) → Except Failure (List UInt8)
  | [] =>
      match failure with
      | none => .ok held
      | some reason => .error (.odoo ("odoo image body failed to read: " ++ reason))
  | chunk :: rest =>
      if maxImageBytes < held.length + chunk.length then .error (tooLarge "over 5242880")
      else readChunks (held ++ chunk) failure rest

def readCapped (res : Response) : Except Failure (List UInt8) :=
  match res.body with
  | none => .ok []
  | some body => readChunks [] body.failure body.chunks

/-- The media type that a header names, without its parameters. -/
def mediaTypeOf (contentType : String) : List Char :=
  (trim (contentType.toList.takeWhile (· ≠ ';'))).map Char.toLower

/-- What is made of an answer. -/
def receive (res : Response) : Except Failure ProxiedImage :=
  if res.status = 304 then .ok (.notModified res.cacheHeaders)
  else if ¬(200 ≤ res.status ∧ res.status ≤ 299) then
    .error (.odoo ("odoo image returned http " ++ toString res.status))
  else
    let contentType := res.contentType.getD ""
    -- A page about a missing database arrives with status 200.
    if ¬"image/".toList <+: mediaTypeOf contentType then
      .error (.odoo ("odoo image returned a non-image response (" ++
        (if contentType = "" then "no content-type" else contentType) ++ ")"))
    -- A drawing may hold scripts, which would run under our own origin.
    else if mediaTypeOf contentType = svgMediaType then .error (.odoo "refusing to proxy an svg image")
    else
      match (contentLengthOf res).filter (maxImageBytes < ·) with
      | some declared => .error (tooLarge (toString declared))
      | none => (readCapped res).map fun bytes => .image bytes contentType res.cacheHeaders

namespace HttpOdooImageClient

/-- The URL to fetch. The check is on the path as it is read. -/
def resolve (client : HttpOdooImageClient) (parser : Url.Parser) (path : List Char) : Except Failure Url :=
  match parser.parse (client.baseUrl.rdropWhile (· = '/')) none with
  | none => .error (.unexpected "Invalid URL")
  | some base =>
      match parser.parse path (some base) with
      | none => .error (.odoo ("refusing to proxy an unparseable path: " ++ String.ofList path))
      | some url =>
          if url.origin ≠ base.origin then
            .error (.odoo ("refusing to proxy off-host: " ++ String.ofList path))
          else if ¬imagePathPrefix <+: url.pathname ∨ encodedTraversal url.pathname then
            .error (.odoo ("refusing to proxy a non-image path: " ++ String.ofList path))
          else .ok url

/-- What is fetched for a path. -/
def fetchOf (client : HttpOdooImageClient) (parser : Url.Parser) (path : List Char)
    (ifNoneMatch : Option String) : Except Failure Fetch :=
  (client.resolve parser path).map fun url =>
    { url := url
      database := if client.database = "" then none else some client.database
      ifNoneMatch := ifNoneMatch }

/-- Fetch an image. `upstream` answers, or tells why there is no answer. -/
def fetchImage (client : HttpOdooImageClient) (parser : Url.Parser) (upstream : Fetch → Except String Response)
    (path : List Char) (ifNoneMatch : Option String) : Except Failure ProxiedImage :=
  (client.fetchOf parser path ifNoneMatch).bind fun fetch =>
    match upstream fetch with
    | .error reason => .error (.odoo ("odoo image request failed: " ++ reason))
    | .ok res => receive res

end HttpOdooImageClient

end VoiceOrder.Odoo
