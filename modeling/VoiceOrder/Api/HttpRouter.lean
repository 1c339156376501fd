import VoiceOrder.Odoo.ImageClient
import VoiceOrder.Shared.UriComponent
import VoiceOrder.Shared.Json

/-! # The REST surface

Confirm a cart, list the orders of a device, and the images of Odoo. Which service a request asks,
and how it is answered. -/

namespace VoiceOrder.Api

open UrlPath UriComponent Odoo

structure Request where
  method : String
  url : Option (List Char)
  ifNoneMatch : Option String

inductive AnswerBody where
  | empty
  | json (value : Json)
  | bytes (bytes : List UInt8)

structure Answer where
  status : ℕ
  headers : List (String × String)
  body : AnswerBody

/-- The services behind the routes. -/
structure Services where
  health : Json
  confirm : String → Except Failure Unit
  ordersByDevice : String → Except Failure Json
  upstream : Fetch → Except String Response

/-- The base of request targets. -/
def localhost : Url where
  origin := "http://localhost"
  special := true
  pathname := ['/']
  search := []

variable (parser : Url.Parser)

/-- The request target, unless it is no URL. -/
def urlOf (url : Option (List Char)) : Option Url := parser.parse (url.getD ['/']) (some localhost)

def pathOf (url : Option (List Char)) : List Char := ((urlOf parser url).map Url.pathname).getD []

/-- The one segment between the fixed ones. -/
def between (before after : List Segment) (path : List Char) : Option Segment :=
  match segmentsOf path with
  | [first, second, third, segment, last] =>
      if [first, second, third] = before ∧ [last] = after ∧ segment ≠ [] then some segment else none
  | _ => none

def confirmRoute : List Char → Option Segment := between [[], "v1".toList, "carts".toList] ["confirm".toList]

def ordersRoute : List Char → Option Segment := between [[], "v1".toList, "devices".toList] ["orders".toList]

inductive Route where
  | health
  /-- The segments are still encoded. -/
  | confirm (raw_cart_id : Segment)
  | orders (raw_device_id : Segment)
  | image (target : Url)
  | unknown

/-- The route of a request. The first one that matches takes it. -/
def route (req : Request) : Route :=
  if req.method = "GET" ∧ (req.url = some "/health".toList ∨ req.url = some "/healthz".toList) then .health
  else
    match (if req.method = "POST" then confirmRoute (pathOf parser req.url) else none) with
    | some raw => .confirm raw
    | none =>
        match (if req.method = "GET" then ordersRoute (pathOf parser req.url) else none) with
        | some raw => .orders raw
        | none =>
            match (if req.method = "GET" ∨ req.method = "HEAD" then urlOf parser req.url else none) with
            | some target =>
                if imagePathPrefix <+: target.pathname ∧ encodedTraversal target.pathname = false then
                  .image target
                else .unknown
            | none => .unknown

/-- What a route says of the request. -/
def Route.Fits (req : Request) : Route → Prop
  | .confirm raw => req.method = "POST" ∧ confirmRoute (pathOf parser req.url) = some raw
  | .orders raw => req.method = "GET" ∧ ordersRoute (pathOf parser req.url) = some raw
  | .image target => urlOf parser req.url = some target ∧ imagePathPrefix <+: target.pathname ∧
      encodedTraversal target.pathname = false
  | .health | .unknown => True

theorem route_fits (req : Request) : (route parser req).Fits parser req := by
  unfold route
  split
  · trivial
  · split
    · rename_i hraw
      exact Option.ite_none_right_eq_some.mp hraw
    · split
      · rename_i hraw
        exact Option.ite_none_right_eq_some.mp hraw
      · split
        · rename_i hurl
          split
          · rename_i hchecked
            exact ⟨(Option.ite_none_right_eq_some.mp hurl).2, hchecked⟩
          · trivial
        · trivial

/-! ## The handlers -/

def sendError (status : ℕ) (message : String) : Answer where
  status := status
  headers := [("content-type", "application/json")]
  body := .json (.obj [("error", .str message)])

def confirmCart (services : Services) (raw_cart_id : Segment) : Answer :=
  match decodeURIComponent raw_cart_id with
  | none => sendError 400 "malformed cart_id in path"
  | some cart_id =>
      match services.confirm cart_id with
      | .ok () => ⟨200, [], .empty⟩
      | .error (.notFound message) => sendError 404 message
      | .error (.odoo message) => sendError 502 message
      | .error (.unexpected message) => sendError 500 message

def deviceOrders (services : Services) (raw_device_id : Segment) : Answer :=
  match decodeURIComponent raw_device_id with
  | none => sendError 400 "malformed device_id in path"
  | some device_id =>
      match services.ordersByDevice device_id with
      | .ok orders => ⟨200, [("content-type", "application/json")], .json orders⟩
      | .error (.notFound message) | .error (.odoo message) | .error (.unexpected message) =>
          sendError 500 message

def cacheHeaders (headers : CacheHeaders) : List (String × String) :=
  (headers.etag.map fun etag => ("etag", etag)).toList ++
    (headers.cacheControl.map fun cacheControl => ("cache-control", cacheControl)).toList

/-- The path and the query that are asked of Odoo. -/
def imagePath (target : Url) : List Char := target.pathname ++ target.search

/-- An image with the headers that keep a browser from reading markup into it. HEAD has no body. -/
def imageAnswer (method : String) (bytes : List UInt8) (contentType : String) (headers : CacheHeaders) :
    Answer where
  status := 200
  headers := [("content-type", contentType), ("content-length", toString bytes.length),
    ("x-content-type-options", "nosniff"), ("content-security-policy", "default-src 'none'")] ++
      cacheHeaders headers
  body := if method = "HEAD" then .empty else .bytes bytes

/-- The answer to an image request, or none where the client is gone when it fails. -/
def proxyImage (services : Services) (client : HttpOdooImageClient) (req : Request) (target : Url)
    (gone : Bool) : Option Answer :=
  match client.fetchImage parser services.upstream (imagePath target) req.ifNoneMatch with
  | .ok (.notModified headers) => some ⟨304, cacheHeaders headers, .empty⟩
  | .ok (.image bytes contentType headers) => some (imageAnswer req.method bytes contentType headers)
  | .error failure =>
      if gone then none
      else
        match failure with
        | .odoo message => some (sendError 502 message)
        | .notFound message | .unexpected message => some (sendError 500 message)

/-- Answer a request. -/
def handle (services : Services) (client : HttpOdooImageClient) (gone : Bool) (req : Request) : Option Answer :=
  match route parser req with
  | .health => some ⟨200, [("content-type", "application/json")], .json services.health⟩
  | .confirm raw => some (confirmCart services raw)
  | .orders raw => some (deviceOrders services raw)
  | .image target => proxyImage parser services client req target gone
  | .unknown => some ⟨404, [], .empty⟩

/-! ## What is asked of the services -/

inductive Asked where
  | confirm (cart_id : String)
  | orders (device_id : String)
  | fetch (fetch : Fetch)
  deriving DecidableEq, Repr

/-- The service that a request asks, and what. -/
def asks (client : HttpOdooImageClient) (req : Request) : Option Asked :=
  match route parser req with
  | .confirm raw => (decodeURIComponent raw).map .confirm
  | .orders raw => (decodeURIComponent raw).map .orders
  | .image target => (client.fetchOf parser (imagePath target) req.ifNoneMatch).toOption.map .fetch
  | .health | .unknown => none

/-- The services give the same result of a call. -/
def Services.AgreeOn (services other : Services) : Asked → Prop
  | .confirm cart_id => services.confirm cart_id = other.confirm cart_id
  | .orders device_id => services.ordersByDevice device_id = other.ordersByDevice device_id
  | .fetch fetch => services.upstream fetch = other.upstream fetch

variable {services other : Services} {client : HttpOdooImageClient} {req : Request} {gone : Bool}

/-- The answer to a request depends on the services through what is asked alone. -/
theorem handle_congr (hhealth : services.health = other.health)
    (h : ∀ asked, asks parser client req = some asked → services.AgreeOn other asked) :
    handle parser services client gone req = handle parser other client gone req := by
  unfold asks at h
  unfold handle
  cases hroute : route parser req with
  | health => rw [hhealth]
  | unknown => rfl
  | confirm raw =>
      simp only [hroute] at h
      cases hid : decodeURIComponent raw with
      | none => simp only [confirmCart, hid]
      | some cart_id =>
          have hsame : services.confirm cart_id = other.confirm cart_id :=
            h (.confirm cart_id) (by rw [hid, Option.map_some])
          simp only [confirmCart, hid, hsame]
  | orders raw =>
      simp only [hroute] at h
      cases hid : decodeURIComponent raw with
      | none => simp only [deviceOrders, hid]
      | some device_id =>
          have hsame : services.ordersByDevice device_id = other.ordersByDevice device_id :=
            h (.orders device_id) (by rw [hid, Option.map_some])
          simp only [deviceOrders, hid, hsame]
  | image target =>
      simp only [hroute] at h
      cases hfetch : client.fetchOf parser (imagePath target) req.ifNoneMatch with
      | error failure => simp only [proxyImage, HttpOdooImageClient.fetchImage, hfetch, Except.bind]
      | ok fetch =>
          have hsame : services.upstream fetch = other.upstream fetch :=
            h (.fetch fetch) (by rw [hfetch]; rfl)
          simp only [proxyImage, HttpOdooImageClient.fetchImage, hfetch, Except.bind, hsame]

end VoiceOrder.Api
