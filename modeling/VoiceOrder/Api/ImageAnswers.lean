import VoiceOrder.Api.ImageProxy

/-! # How image requests are answered

An image is answered with status 200 just when the whole of it arrived, is of a raster type and no
larger than the cap. A HEAD request gets the status and the headers of a GET request. -/

namespace VoiceOrder.Api

open UrlPath Odoo

variable {parser : Url.Parser} {services : Services} {client : HttpOdooImageClient} {gone : Bool}
  {req : Request} {target : Url} {fetch : Fetch} {res : Response} {held bytes : List UInt8}
  {contentType : String} {answer : Answer}

/-! ## What is received -/

/-- The image of an answer that may be passed on. -/
structure Proxiable (res : Response) (bytes : List UInt8) (contentType : String) : Prop where
  status : 200 ≤ res.status ∧ res.status ≤ 299
  type : contentType = res.contentType.getD ""
  raster : "image/".toList <+: mediaTypeOf contentType ∧ mediaTypeOf contentType ≠ svgMediaType
  declared : ∀ declared, contentLengthOf res = some declared → declared ≤ maxImageBytes
  whole : ∀ body, res.body = some body → body.failure = none
  content : bytes = (res.body.map fun body => body.chunks.flatten).getD []
  bounded : bytes.length ≤ maxImageBytes

theorem readChunks_ok_iff {failure : Option String} {chunks : List (List UInt8)}
    (hheld : held.length ≤ maxImageBytes) : readChunks held failure chunks = .ok bytes ↔
      failure = none ∧ bytes = held ++ chunks.flatten ∧ bytes.length ≤ maxImageBytes := by
  induction chunks generalizing held with
  | nil =>
      rw [List.flatten_nil, List.append_nil]
      cases failure with
      | none =>
          rw [readChunks, Except.ok.injEq]
          constructor
          · rintro rfl
            exact ⟨rfl, rfl, hheld⟩
          · rintro ⟨-, rfl, -⟩
            rfl
      | some reason =>
          constructor
          · rintro ⟨⟩
          · rintro ⟨⟨⟩, -, -⟩
  | cons chunk rest ih =>
      rw [readChunks, List.flatten_cons, ← List.append_assoc]
      by_cases hfits : held.length + chunk.length ≤ maxImageBytes
      · rw [if_neg (Nat.not_lt.mpr hfits), ih (List.length_append ▸ hfits)]
      · rw [if_pos (Nat.lt_of_not_le hfits)]
        constructor
        · rintro ⟨⟩
        · rintro ⟨-, rfl, hbounded⟩
          rw [List.length_append, List.length_append] at hbounded
          omega

theorem readCapped_ok_iff : readCapped res = .ok bytes ↔
    (∀ body, res.body = some body → body.failure = none) ∧
      bytes = (res.body.map fun body => body.chunks.flatten).getD [] ∧ bytes.length ≤ maxImageBytes := by
  unfold readCapped
  cases res.body with
  | none =>
      rw [Except.ok.injEq]
      constructor
      · rintro rfl
        exact ⟨fun _ h => (Option.some_ne_none _ h.symm).elim, rfl, Nat.zero_le _⟩
      · rintro ⟨-, rfl, -⟩
        rfl
  | some body =>
      dsimp only
      rw [readChunks_ok_iff (Nat.zero_le _), List.nil_append, Option.map_some, Option.getD_some]
      refine and_congr_left' ⟨fun h other heq => ?_, fun h => h body rfl⟩
      obtain rfl := Option.some.inj heq
      exact h

theorem receive_image_iff {headers : CacheHeaders} : receive res = .ok (.image bytes contentType headers) ↔
    Proxiable res bytes contentType ∧ headers = res.cacheHeaders := by
  unfold receive
  by_cases hnot : res.status = 304
  · rw [if_pos hnot]
    constructor
    · rintro ⟨⟩
    · rintro ⟨h, -⟩
      have hstatus := h.status.2
      omega
  rw [if_neg hnot]
  by_cases hstatus : 200 ≤ res.status ∧ res.status ≤ 299
  case neg =>
    rw [if_pos hstatus]
    constructor
    · rintro ⟨⟩
    · rintro ⟨h, -⟩
      exact absurd h.status hstatus
  rw [if_neg (not_not.mpr hstatus)]
  dsimp only
  by_cases himage : "image/".toList <+: mediaTypeOf (res.contentType.getD "")
  case neg =>
    rw [if_pos himage]
    constructor
    · rintro ⟨⟩
    · rintro ⟨h, -⟩
      exact absurd (h.type ▸ h.raster.1) himage
  rw [if_neg (not_not.mpr himage)]
  by_cases hsvg : mediaTypeOf (res.contentType.getD "") = svgMediaType
  · rw [if_pos hsvg]
    constructor
    · rintro ⟨⟩
    · rintro ⟨h, -⟩
      exact absurd hsvg (h.type ▸ h.raster.2)
  rw [if_neg hsvg]
  cases hdeclared : (contentLengthOf res).filter (maxImageBytes < ·) with
  | some declared =>
      obtain ⟨hlength, hlarge⟩ := Option.filter_eq_some_iff.mp hdeclared
      constructor
      · rintro ⟨⟩
      · rintro ⟨h, -⟩
        exact absurd (h.declared declared hlength) (Nat.not_le.mpr (of_decide_eq_true hlarge))
  | none =>
      have hfits : ∀ declared, contentLengthOf res = some declared → declared ≤ maxImageBytes :=
        fun declared hlength => Nat.not_lt.mp fun hlarge =>
          Option.filter_eq_none_iff.mp hdeclared declared hlength (decide_eq_true hlarge)
      dsimp only
      cases hread : readCapped res with
      | error failure =>
          constructor
          · rintro ⟨⟩
          · rintro ⟨h, -⟩
            rw [readCapped_ok_iff.mpr ⟨h.whole, h.content, h.bounded⟩] at hread
            cases hread
      | ok found =>
          obtain ⟨hwhole, hcontent, hbounded⟩ := readCapped_ok_iff.mp hread
          constructor
          · rintro ⟨⟩
            exact ⟨⟨hstatus, rfl, ⟨himage, hsvg⟩, hfits, hwhole, hcontent, hbounded⟩, rfl⟩
          · rintro ⟨h, rfl⟩
            obtain rfl := h.type
            obtain rfl := hcontent.trans h.content.symm
            rfl

/-! ## What is answered -/

theorem handle_image (h : route parser req = .image target) :
    handle parser services client gone req = proxyImage parser services client req target gone := by
  rw [handle, h]

theorem asks_image (h : route parser req = .image target) : asks parser client req =
    (client.fetchOf parser (imagePath target) req.ifNoneMatch).toOption.map .fetch := by
  rw [asks, h]

/-- The proxy answers with status 200 just when it received an image. -/
theorem proxyImage_iff : proxyImage parser services client req target gone = some answer ∧ answer.status = 200 ↔
    ∃ bytes contentType headers,
      client.fetchImage parser services.upstream (imagePath target) req.ifNoneMatch =
        .ok (.image bytes contentType headers) ∧
      answer = imageAnswer req.method bytes contentType headers := by
  unfold proxyImage
  cases hfetched : client.fetchImage parser services.upstream (imagePath target) req.ifNoneMatch with
  | ok fetched =>
      cases fetched with
      | notModified headers =>
          constructor
          · rintro ⟨⟨⟩, ⟨⟩⟩
          · rintro ⟨_, _, _, ⟨⟩, -⟩
      | image bytes contentType headers =>
          constructor
          · rintro ⟨⟨⟩, -⟩
            exact ⟨_, _, _, rfl, rfl⟩
          · rintro ⟨_, _, _, ⟨⟩, rfl⟩
            exact ⟨rfl, rfl⟩
  | error failure =>
      constructor
      · rintro ⟨hanswer, hstatus⟩
        dsimp only at hanswer
        split at hanswer
        · cases hanswer
        · cases failure with
          | odoo message =>
              cases hanswer
              cases hstatus
          | notFound message | unexpected message =>
              cases hanswer
              cases hstatus
      · rintro ⟨_, _, _, ⟨⟩, -⟩

/-- What is received is what the upstream answered to the fetch. -/
theorem fetchImage_iff {headers : CacheHeaders} : client.fetchImage parser services.upstream (imagePath target)
      req.ifNoneMatch = .ok (.image bytes contentType headers) ↔
    ∃ fetch res, client.fetchOf parser (imagePath target) req.ifNoneMatch = .ok fetch ∧
      services.upstream fetch = .ok res ∧ Proxiable res bytes contentType ∧ headers = res.cacheHeaders := by
  unfold HttpOdooImageClient.fetchImage
  cases client.fetchOf parser (imagePath target) req.ifNoneMatch with
  | error failure =>
      constructor
      · rintro ⟨⟩
      · rintro ⟨_, _, ⟨⟩, -⟩
  | ok fetch =>
      dsimp only [Except.bind]
      cases hupstream : services.upstream fetch with
      | error reason =>
          constructor
          · rintro ⟨⟩
          · rintro ⟨_, _, ⟨⟩, hres, -⟩
            rw [hupstream] at hres
            cases hres
      | ok res =>
          dsimp only
          rw [receive_image_iff]
          constructor
          · rintro ⟨h, rfl⟩
            exact ⟨fetch, res, rfl, hupstream, h, rfl⟩
          · rintro ⟨_, found, ⟨⟩, hfound, h, rfl⟩
            rw [hupstream] at hfound
            cases hfound
            exact ⟨h, rfl⟩

/-! ## HEAD and GET -/

/-- A target under the image route is no other route. -/
theorem route_of_checked (hmethod : req.method = "GET" ∨ req.method = "HEAD")
    (hurl : urlOf parser req.url = some target) (hroot : imagePathPrefix <+: target.pathname)
    (hsafe : encodedTraversal target.pathname = false) : route parser req = .image target := by
  have hhealth : ∀ path ∈ ["/health".toList, "/healthz".toList], req.url ≠ some path := by
    intro path hmem heq
    rw [urlOf, heq] at hurl
    have hread : parser.parse path (some localhost) = some { localhost with pathname := path } := by
      simp only [List.mem_cons, List.not_mem_nil, or_false] at hmem
      rcases hmem with rfl | rfl <;> rfl
    rw [Option.getD_some, hread] at hurl
    obtain rfl := Option.some.inj hurl
    simp only [List.mem_cons, List.not_mem_nil, or_false] at hmem
    rcases hmem with rfl | rfl <;> exact absurd hroot (by decide)
  have hpost : req.method ≠ "POST" := by
    rcases hmethod with h | h <;> rw [h] <;> decide
  have horders : ordersRoute (pathOf parser req.url) = none := by
    obtain ⟨tail, htail⟩ := hroot
    have hsegments : segmentsOf (imagePathPrefix ++ tail) =
        segmentsOf "/web/image".toList ++ segmentsOf tail :=
      @segmentsOf_append "/web/image".toList tail
    rw [pathOf, hurl, Option.map_some, Option.getD_some, ← htail, ordersRoute, between, hsegments]
    split
    · rename_i first second third segment last heq
      have hfront : [[], "web".toList, "image".toList] = [first, second, third] := congrArg (List.take 3) heq
      exact if_neg fun h => absurd (hfront.trans h.1) (by decide)
    · rfl
  unfold route
  rw [if_neg (by rintro ⟨-, h | h⟩ <;> exact hhealth _ (by decide) h), if_neg hpost]
  dsimp only
  rw [horders, ite_self, if_pos hmethod, hurl]
  exact if_pos ⟨hroot, hsafe⟩

def Answer.outline (answer : Answer) : ℕ × List (String × String) := (answer.status, answer.headers)

/-- How a request for an image is answered. -/
structure ImageAnswers (parser : Url.Parser) (services : Services) (client : HttpOdooImageClient) (gone : Bool)
    (req : Request) : Prop where
  image : ∀ answer, handle parser services client gone req = some answer ∧ answer.status = 200 ↔
    ∃ fetch res bytes contentType, asks parser client req = some (.fetch fetch) ∧
      services.upstream fetch = .ok res ∧ Proxiable res bytes contentType ∧
      answer = imageAnswer req.method bytes contentType res.cacheHeaders
  head : ∀ method, method = "GET" ∨ method = "HEAD" →
    (handle parser services client gone { req with method := method }).map Answer.outline =
      (handle parser services client gone req).map Answer.outline

/-- A request for an image is answered with status 200 just when what is fetched for it is a raster
image, whole and no larger than the cap; HEAD and GET are answered alike. -/
theorem images_answered (h : route parser req = .image target) :
    ImageAnswers parser services client gone req where
  image := fun answer => by
    rw [handle_image h, proxyImage_iff, asks_image h]
    constructor
    · rintro ⟨bytes, contentType, headers, hfetched, rfl⟩
      obtain ⟨fetch, res, hfetch, hupstream, hproxiable, rfl⟩ := fetchImage_iff.mp hfetched
      exact ⟨fetch, res, bytes, contentType, by rw [hfetch]; rfl, hupstream, hproxiable, rfl⟩
    · rintro ⟨fetch, res, bytes, contentType, hasks, hupstream, hproxiable, rfl⟩
      refine ⟨bytes, contentType, res.cacheHeaders, fetchImage_iff.mpr
        ⟨fetch, res, ?_, hupstream, hproxiable, rfl⟩, rfl⟩
      cases hfetch : client.fetchOf parser (imagePath target) req.ifNoneMatch with
      | error failure =>
          rw [hfetch] at hasks
          cases hasks
      | ok found =>
          rw [hfetch] at hasks
          cases hasks
          rfl
  head := fun method hmethod => by
    obtain ⟨hurl, hroot, hsafe⟩ := route_image h
    have hother : route parser { req with method := method } = .image target :=
      route_of_checked hmethod hurl hroot hsafe
    rw [handle_image h, handle_image hother, proxyImage, proxyImage]
    cases client.fetchImage parser services.upstream (imagePath target) req.ifNoneMatch with
    | ok fetched =>
        cases fetched with
        | notModified headers => rfl
        | image bytes contentType headers => rfl
    | error failure => rfl

/-- A host that answers every fetch with the same small image. -/
def thumbnailServices : Services where
  health := .null
  confirm := fun cart_id => .error (.notFound ("unknown cart: " ++ cart_id))
  ordersByDevice := fun _ => .ok (.arr [])
  upstream := fun _ => .ok
    { status := 200
      cacheHeaders := ⟨some "4f", none⟩
      contentType := some "image/png"
      contentLength := some "4"
      body := some ⟨[[137, 80], [78, 71]], none⟩ }

theorem images_answered_thumbnail : ImageAnswers (.knowing "http://odoo.test") thumbnailServices
    ⟨"http://odoo.test/".toList, "shop"⟩ false thumbnailRequest :=
  images_answered rfl

end VoiceOrder.Api
