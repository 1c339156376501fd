import VoiceOrder.Api.HttpRouter

/-! # What the image proxy fetches

A fetch stays on the host of Odoo and under its image route, even for a reader behind it that
unquotes the path before it looks for dot segments. -/

namespace VoiceOrder.Api

open UrlPath Odoo

variable {parser : Url.Parser} {client : HttpOdooImageClient} {req : Request} {url target : Url}
  {fetch : Fetch}

/-- A path that passes the checks is served under the image route. -/
theorem served_of_checked (hserialized : url.Serialized) (hroot : imagePathPrefix <+: url.pathname)
    (hsafe : encodedTraversal url.pathname = false) :
    ∃ rest, served url.pathname = [] :: "web".toList :: "image".toList :: rest := by
  obtain ⟨tail, htail⟩ := hroot
  have hfront : imagePathPrefix ++ tail = text ["web".toList, "image".toList] ++ '/' :: tail := by
    rfl
  obtain ⟨path, hpath, hsegments⟩ := hserialized.path _ (htail.symm.trans hfront)
  have hslash : ∀ segment ∈ path, '/' ∉ segment := fun segment hmem hc =>
    ((hsegments segment hmem).2 '/' hc).1 rfl
  have hunder : path = ["web".toList, "image".toList] ++ segmentsOf tail :=
    path_of_front hslash (by decide) (hpath.symm.trans (htail.symm.trans hfront))
  have hserved := served_text (fun segment hmem => ⟨hslash segment hmem, (hsegments segment hmem).1⟩)
    (hpath ▸ hsafe)
  refine ⟨(segmentsOf tail).map unquote, ?_⟩
  rw [hpath, hserved, hunder]
  rfl

theorem backslash_not_mem {word : List Char} (h : encodedTraversal word = false) : '\\' ∉ word := by
  intro hmem
  obtain ⟨front, rest, rfl⟩ := List.append_of_mem hmem
  have hhere := encodedTraversal_eq_false.mp h ('\\' :: rest) (List.suffix_append _ _)
  cases hhere

/-- What a request for an image comes to. -/
structure ImageFetch (parser : Url.Parser) (client : HttpOdooImageClient) (req : Request) (fetch : Fetch) :
    Prop where
  /-- The path is that of the request, on the host of Odoo. -/
  site : ∃ base target, parser.parse (client.baseUrl.rdropWhile (· = '/')) none = some base ∧
    urlOf parser req.url = some target ∧ fetch.url.origin = base.origin ∧
      (base.special = true → fetch.url.pathname = target.pathname)
  served : ∃ rest, served fetch.url.pathname = [] :: "web".toList :: "image".toList :: rest

theorem route_image (h : route parser req = .image target) : urlOf parser req.url = some target ∧
    imagePathPrefix <+: target.pathname ∧ encodedTraversal target.pathname = false := by
  have hfits := route_fits parser req
  rwa [h] at hfits

theorem resolve_ok {path : List Char} (h : client.resolve parser path = .ok url) :
    ∃ base, parser.parse (client.baseUrl.rdropWhile (· = '/')) none = some base ∧
      parser.parse path (some base) = some url ∧ url.origin = base.origin ∧
      imagePathPrefix <+: url.pathname ∧ encodedTraversal url.pathname = false := by
  unfold HttpOdooImageClient.resolve at h
  split at h
  · cases h
  · rename_i base hbase
    split at h
    · cases h
    · rename_i found hfound
      split at h
      · cases h
      · rename_i horigin
        split at h
        · cases h
        · rename_i hchecked
          cases h
          rw [not_or, not_not, Bool.not_eq_true] at hchecked
          exact ⟨base, hbase, hfound, not_not.mp horigin, hchecked⟩

/-- Whatever the request and the configured host: what is fetched for it is the path of the
request on the host of Odoo, and whoever serves it serves an image path. -/
theorem images_confined (h : asks parser client req = some (.fetch fetch)) :
    ImageFetch parser client req fetch := by
  unfold asks at h
  split at h
  · obtain ⟨_, -, h⟩ := Option.map_eq_some_iff.mp h
    cases h
  · obtain ⟨_, -, h⟩ := Option.map_eq_some_iff.mp h
    cases h
  · rename_i target hroute
    obtain ⟨found, hfetch, heq⟩ := Option.map_eq_some_iff.mp h
    cases heq
    obtain ⟨hurl, hroot, hsafe⟩ := route_image hroute
    cases hresolve : client.resolve parser (imagePath target) with
    | error failure =>
        rw [HttpOdooImageClient.fetchOf, hresolve] at hfetch
        cases hfetch
    | ok url =>
        rw [HttpOdooImageClient.fetchOf, hresolve] at hfetch
        cases hfetch
        obtain ⟨base, hbase, hparse, horigin, hunder, hunescaped⟩ := resolve_ok hresolve
        refine ⟨⟨base, target, hbase, hurl, horigin, fun hspecial => ?_⟩,
          served_of_checked (Url.Parser.parse_serialized hparse) hunder hunescaped⟩
        have habsolute : Url.isAbsolutePath target.pathname = true := by
          obtain ⟨tail, htail⟩ := hroot
          rw [← htail]
          rfl
        obtain ⟨found, hfound, -, hsame⟩ := Url.parse_pathname hspecial
          (Url.Parser.parse_serialized hurl) habsolute (backslash_not_mem hsafe)
        rw [imagePath, hfound] at hparse
        obtain rfl := Option.some.inj hparse
        exact hsame
  · cases h
  · cases h

/-- A request for a thumbnail, whose path has a dot segment. -/
def thumbnailRequest : Request where
  method := "GET"
  url := some "/web/static/../image/product.product/7/image_128?unique=4f".toList
  ifNoneMatch := none

theorem images_confined_thumbnail : ImageFetch (.knowing "http://odoo.test") ⟨"http://odoo.test/".toList, "shop"⟩
    thumbnailRequest
    ⟨⟨"http://odoo.test", true, "/web/image/product.product/7/image_128".toList, "?unique=4f".toList⟩,
      some "shop", none⟩ :=
  images_confined (by decide)

end VoiceOrder.Api
