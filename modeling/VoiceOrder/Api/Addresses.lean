import VoiceOrder.Api.HttpRouter

/-! # Which ids can be addressed

A cart or a device is named by one segment of a path, percent-encoded. Every id is reached by the
segment that encodes it, but for the empty one and those that are read as dot segments. -/

namespace VoiceOrder.Api

open UrlPath UriComponent Odoo

variable {parser : Url.Parser} {client : HttpOdooImageClient} {req : Request} {collection action : String}
  {path : List Char} {raw : Segment} {id word : String}

/-- The route that names an id of a collection. -/
def idRoute (collection action : String) : List Char → Option Segment :=
  between [[], "v1".toList, collection.toList] [action.toList]

/-- The segments of a path that names an id. -/
def idSegments (collection action : String) (raw : Segment) : List Segment :=
  ["v1".toList, collection.toList, raw, action.toList]

/-- The path by which a client names an id. -/
def pathTo (collection action id : String) : List Char :=
  text (idSegments collection action (encodeURIComponent id))

/-- The ids that no segment names. -/
def unwritable : List String := ["", ".", ".."]

/-- The path names the id. -/
def Names (collection action : String) (path : List Char) (id : String) : Prop :=
  ∃ raw, segmentsOf path = [] :: idSegments collection action raw ∧ decodeURIComponent raw = some id

/-! ## Reading a path -/

theorem idRoute_eq_some : idRoute collection action path = some raw ↔
    segmentsOf path = [] :: idSegments collection action raw ∧ raw ≠ [] := by
  unfold idRoute between
  split
  · rename_i first second third segment last hsegments
    rw [Option.ite_none_right_eq_some, hsegments, idSegments]
    simp only [List.cons.injEq, and_true, Option.some.injEq]
    constructor
    · rintro ⟨⟨⟨rfl, rfl, rfl⟩, rfl, hne⟩, rfl⟩
      exact ⟨⟨rfl, rfl, rfl, rfl, rfl⟩, hne⟩
    · rintro ⟨⟨rfl, rfl, rfl, rfl, rfl⟩, hne⟩
      exact ⟨⟨⟨rfl, rfl, rfl⟩, rfl, hne⟩, rfl⟩
  · rename_i hnot
    constructor
    · rintro ⟨⟩
    · rintro ⟨hsegments, -⟩
      exact (hnot _ _ _ _ _ hsegments).elim

theorem slash_of_segmentsOf {segment : Segment} {rest : List Segment}
    (h : segmentsOf path = [] :: segment :: rest) : ∃ tail, path = '/' :: tail := by
  cases path with
  | nil => cases h
  | cons c tail =>
      rw [segmentsOf, List.splitOnP_cons_eq_if_modifyHead] at h
      split at h
      · rename_i hc
        exact ⟨tail, by rw [of_decide_eq_true hc]⟩
      · obtain ⟨first, others, hsplit⟩ := List.exists_cons_of_ne_nil (List.splitOnP_ne_nil _ tail)
        rw [hsplit, List.modifyHead_cons] at h
        cases h

/-- A segment of a path that was read is no dot segment. -/
theorem proper_of_segmentsOf {url : Url} {segments : List Segment} (h : url.Serialized)
    (hpath : segmentsOf url.pathname = [] :: segments) (hmem : raw ∈ segments) : Proper raw := by
  cases segments with
  | nil => cases hmem
  | cons first rest =>
      obtain ⟨tail, htail⟩ := slash_of_segmentsOf hpath
      obtain ⟨read, hread, hsegments⟩ := h.path tail htail
      rw [hread, segmentsOf_text fun segment hsegment hslash =>
        ((hsegments segment hsegment).2 '/' hslash).1 rfl] at hpath
      obtain rfl := (List.cons_eq_cons.mp hpath).2
      exact (hsegments raw hmem).1

theorem writable_of_decode (h : decodeURIComponent raw = some id) (hproper : Proper raw) (hne : raw ≠ []) :
    id ∉ unwritable := by
  simp only [unwritable, List.mem_cons, List.not_mem_nil, or_false]
  rintro (rfl | rfl | rfl)
  · exact hne (percentBytes_eq_nil (decodeURIComponent_eq_some.mp h))
  · exact absurd (isSingleDot_iff_decode.mpr h) (Bool.eq_false_iff.mp hproper.1)
  · exact absurd (isDoubleDot_iff_decode.mpr h) (Bool.eq_false_iff.mp hproper.2)

/-- What a route reads is named by the path, and can be named. -/
theorem idRoute_iff : ((idRoute collection action (pathOf parser req.url)).bind decodeURIComponent = some id) ↔
    id ∉ unwritable ∧ Names collection action (pathOf parser req.url) id := by
  rw [Option.bind_eq_some_iff]
  constructor
  · rintro ⟨raw, hraw, hid⟩
    obtain ⟨hsegments, hne⟩ := idRoute_eq_some.mp hraw
    refine ⟨?_, raw, hsegments, hid⟩
    rw [pathOf] at hsegments
    cases hurl : urlOf parser req.url with
    | none =>
        rw [hurl] at hsegments
        cases hsegments
    | some url =>
        rw [hurl] at hsegments
        have hmem : raw ∈ idSegments collection action raw := by simp [idSegments]
        exact writable_of_decode hid
          (proper_of_segmentsOf (Url.Parser.parse_serialized hurl) hsegments hmem) hne
  · rintro ⟨hid, raw, hsegments, hdecoded⟩
    refine ⟨raw, idRoute_eq_some.mpr ⟨hsegments, ?_⟩, hdecoded⟩
    rintro rfl
    cases hdecoded
    exact hid (by decide)

/-! ## Asking for an id -/

theorem route_confirm_iff : route parser req = .confirm raw ↔
    req.method = "POST" ∧ idRoute "carts" "confirm" (pathOf parser req.url) = some raw := by
  constructor
  · intro h
    have hfits := route_fits parser req
    rwa [h] at hfits
  · rintro ⟨hpost, hraw⟩
    have hconfirm : confirmRoute (pathOf parser req.url) = some raw := hraw
    rw [route, hpost, if_neg fun h => absurd h.1 (by decide), if_pos rfl, hconfirm]

theorem route_orders_iff : route parser req = .orders raw ↔
    req.method = "GET" ∧ idRoute "devices" "orders" (pathOf parser req.url) = some raw := by
  constructor
  · intro h
    have hfits := route_fits parser req
    rwa [h] at hfits
  · rintro ⟨hget, hraw⟩
    have horders : ordersRoute (pathOf parser req.url) = some raw := hraw
    -- The health routes have no segment for an id.
    have hhealth : ¬(req.url = some "/health".toList ∨ req.url = some "/healthz".toList) := by
      rintro (hurl | hurl)
      · rw [hurl] at hraw
        cases hraw
      · rw [hurl] at hraw
        cases hraw
    rw [route, if_neg fun h => hhealth h.2, hget, if_neg (by decide)]
    dsimp only
    rw [if_pos rfl, horders]

theorem asks_confirm_iff : asks parser client req = some (.confirm id) ↔ req.method = "POST" ∧
    (idRoute "carts" "confirm" (pathOf parser req.url)).bind decodeURIComponent = some id := by
  simp only [Option.bind_eq_some_iff, ← and_assoc, ← exists_and_left, ← route_confirm_iff]
  unfold asks
  cases route parser req with
  | health => simp
  | confirm raw => simp
  | orders raw => simp
  | image target => simp
  | unknown => simp

theorem asks_orders_iff : asks parser client req = some (.orders id) ↔ req.method = "GET" ∧
    (idRoute "devices" "orders" (pathOf parser req.url)).bind decodeURIComponent = some id := by
  simp only [Option.bind_eq_some_iff, ← and_assoc, ← exists_and_left, ← route_orders_iff]
  unfold asks
  cases route parser req with
  | health => simp
  | confirm raw => simp
  | orders raw => simp
  | image target => simp
  | unknown => simp

/-! ## Writing a path -/

theorem isAlphanum_ranges {c : Char} (h : c.isAlphanum = true) : (65 ≤ c.toNat ∧ c.toNat ≤ 90) ∨
    (97 ≤ c.toNat ∧ c.toNat ≤ 122) ∨ (48 ≤ c.toNat ∧ c.toNat ≤ 57) := by
  rcases Bool.or_eq_true_iff.mp h with hletter | hdigit
  · rcases Bool.or_eq_true_iff.mp hletter with hupper | hlower
    · obtain ⟨hlow, hhigh⟩ := of_decide_eq_true hupper
      exact .inl ⟨UInt32.le_iff_toNat_le.mp hlow, UInt32.le_iff_toNat_le.mp hhigh⟩
    · obtain ⟨hlow, hhigh⟩ := Bool.and_eq_true_iff.mp hlower
      exact .inr (.inl ⟨UInt32.le_iff_toNat_le.mp (of_decide_eq_true hlow),
        UInt32.le_iff_toNat_le.mp (of_decide_eq_true hhigh)⟩)
  · obtain ⟨hlow, hhigh⟩ := Bool.and_eq_true_iff.mp hdigit
    exact .inr (.inr ⟨UInt32.le_iff_toNat_le.mp (of_decide_eq_true hlow),
      UInt32.le_iff_toNat_le.mp (of_decide_eq_true hhigh)⟩)

theorem unreserved_plain {c : Char} (h : isUnreserved c = true) :
    Url.inPathSet c = false ∧ c ≠ '/' ∧ c ≠ '\\' := by
  have hforbidden : ∀ d ∈ ['"', '#', '<', '>', '?', '^', '\x60', '\x7b', '\x7d', '/', '\\'], c ≠ d := by
    rintro d hd rfl
    have hall : ['"', '#', '<', '>', '?', '^', '\x60', '\x7b', '\x7d', '/', '\\'].all
        (fun d => !isUnreserved d) = true := by decide
    have hd := List.all_eq_true.mp hall c hd
    rw [h] at hd
    cases hd
  have hrange : 0x20 < c.toNat ∧ c.toNat ≤ 0x7E := by
    rcases Bool.or_eq_true_iff.mp h with hletter | hlisted
    · rcases isAlphanum_ranges hletter with hupper | hlower | hdigit
      · omega
      · omega
      · omega
    · have hall : ['-', '_', '.', '!', '~', '*', '\x27', '(', ')'].all
          (fun d => decide (0x20 < d.toNat ∧ d.toNat ≤ 0x7E)) = true := by decide
      exact of_decide_eq_true (List.all_eq_true.mp hall c (of_decide_eq_true hlisted))
  simp only [List.forall_mem_cons] at hforbidden
  simp [Url.inPathSet, Url.inQuerySet, hforbidden, hrange]

theorem mem_encodeURIComponent {c : Char} (h : c ∈ encodeURIComponent id) :
    Url.inPathSet c = false ∧ c ≠ '/' ∧ c ≠ '\\' := by
  rcases Url.mem_encode h with ⟨-, hc⟩ | rfl | ⟨n, hn, rfl⟩
  · exact unreserved_plain (by simpa using hc)
  · decide
  · exact Url.hexDigit_plain n hn

theorem proper_encode (h : id ∉ unwritable) : Proper (encodeURIComponent id) := by
  simp only [unwritable, List.mem_cons, List.not_mem_nil, or_false, not_or] at h
  constructor
  · refine Bool.eq_false_iff.mpr fun hdot => h.2.1 ?_
    exact Option.some.inj ((decode_encode id).symm.trans (isSingleDot_iff_decode.mp hdot))
  · refine Bool.eq_false_iff.mpr fun hdots => h.2.2 ?_
    exact Option.some.inj ((decode_encode id).symm.trans (isDoubleDot_iff_decode.mp hdots))

theorem encode_ne_nil (h : id ∉ unwritable) : encodeURIComponent id ≠ [] := by
  intro hnil
  have hid : id = "" := Option.some.inj ((decode_encode id).symm.trans (by rw [hnil]; rfl))
  exact h (by rw [hid]; decide)

/-- A word that can stand in a path as it is. -/
def PathWord (word : String) : Prop :=
  Proper word.toList ∧ ∀ c ∈ word.toList, Url.inPathSet c = false ∧ c ≠ '/' ∧ c ≠ '\\'

theorem pathWord_of_all (hproper : Proper word.toList)
    (h : (word.toList.all fun c => !Url.inPathSet c && c ≠ '/' && c ≠ '\\') = true) : PathWord word := by
  refine ⟨hproper, fun c hc => ?_⟩
  have hplain := List.all_eq_true.mp h c hc
  simp only [Bool.and_eq_true, Bool.not_eq_true', decide_eq_true_eq] at hplain
  exact ⟨hplain.1.1, hplain.1.2, hplain.2⟩

theorem pathWord_v1 : PathWord "v1" := pathWord_of_all ⟨by decide, by decide⟩ (by decide)

theorem pathWord_carts : PathWord "carts" := pathWord_of_all ⟨by decide, by decide⟩ (by decide)

theorem pathWord_confirm : PathWord "confirm" := pathWord_of_all ⟨by decide, by decide⟩ (by decide)

theorem pathWord_devices : PathWord "devices" := pathWord_of_all ⟨by decide, by decide⟩ (by decide)

theorem pathWord_orders : PathWord "orders" := pathWord_of_all ⟨by decide, by decide⟩ (by decide)

theorem mem_idSegments {segment : Segment} (hcollection : PathWord collection) (haction : PathWord action)
    (h : id ∉ unwritable) (hmem : segment ∈ idSegments collection action (encodeURIComponent id)) :
    Proper segment ∧ ∀ c ∈ segment, Url.inPathSet c = false ∧ c ≠ '/' ∧ c ≠ '\\' := by
  simp only [idSegments, List.mem_cons, List.not_mem_nil, or_false] at hmem
  rcases hmem with rfl | rfl | rfl | rfl
  · exact pathWord_v1
  · exact hcollection
  · exact ⟨proper_encode h, fun c hc => mem_encodeURIComponent hc⟩
  · exact haction

/-- The path by which a client names an id is read as it is written. -/
theorem pathOf_pathTo (hcollection : PathWord collection) (haction : PathWord action) (h : id ∉ unwritable) :
    pathOf parser (some (pathTo collection action id)) = pathTo collection action id := by
  have hmem : ∀ segment ∈ idSegments collection action (encodeURIComponent id),
      Proper segment ∧ ∀ c ∈ segment, Url.inPathSet c = false ∧ c ≠ '/' ∧ c ≠ '\\' :=
    fun _ hsegment => mem_idSegments hcollection haction h hsegment
  let url : Url := { localhost with pathname := pathTo collection action id }
  have hserialized : url.Serialized := by
    refine ⟨fun _ _ => ⟨_, rfl, fun segment hsegment => ?_⟩, fun c hc => (List.not_mem_nil hc).elim, .inl rfl⟩
    obtain ⟨hproper, hchars⟩ := hmem segment hsegment
    exact ⟨hproper, fun c hc => ⟨(hchars c hc).2.1, (hchars c hc).1⟩⟩
  have hbackslash : '\\' ∉ pathTo collection action id := by
    intro hc
    obtain ⟨segment, hsegment, hc⟩ := List.mem_flatMap.mp hc
    rcases List.mem_cons.mp hc with hslash | hc
    · cases hslash
    · exact ((hmem segment hsegment).2 _ hc).2.2 rfl
  obtain ⟨found, hfound, -, hpath⟩ : ∃ found, parser.parse (url.pathname ++ url.search) (some localhost) =
      some found ∧ found.origin = localhost.origin ∧ found.pathname = url.pathname :=
    Url.parse_pathname rfl hserialized rfl hbackslash
  have hread : urlOf parser (some (pathTo collection action id)) = some found := by
    rw [← hfound]
    exact congrArg (parser.parse · (some localhost)) (List.append_nil _).symm
  rw [pathOf, hread]
  exact hpath

theorem idRoute_pathTo (hcollection : PathWord collection) (haction : PathWord action) (h : id ∉ unwritable) :
    (idRoute collection action (pathOf parser (some (pathTo collection action id)))).bind decodeURIComponent =
      some id := by
  rw [pathOf_pathTo hcollection haction h]
  have hsegments : segmentsOf (pathTo collection action id) =
      [] :: idSegments collection action (encodeURIComponent id) :=
    segmentsOf_text fun segment hsegment hslash =>
      ((mem_idSegments hcollection haction h hsegment).2 '/' hslash).2.1 rfl
  rw [idRoute_eq_some.mpr ⟨hsegments, encode_ne_nil h⟩]
  exact decode_encode id

/-- How an id is reached. -/
structure Addressed (parser : Url.Parser) (client : HttpOdooImageClient) (id : String) : Prop where
  confirm : ∀ req, asks parser client req = some (.confirm id) ↔
    req.method = "POST" ∧ id ∉ unwritable ∧ Names "carts" "confirm" (pathOf parser req.url) id
  orders : ∀ req, asks parser client req = some (.orders id) ↔
    req.method = "GET" ∧ id ∉ unwritable ∧ Names "devices" "orders" (pathOf parser req.url) id
  written : id ∉ unwritable → ∀ ifNoneMatch,
    asks parser client ⟨"POST", some (pathTo "carts" "confirm" id), ifNoneMatch⟩ = some (.confirm id) ∧
    asks parser client ⟨"GET", some (pathTo "devices" "orders" id), ifNoneMatch⟩ = some (.orders id)

/-- A request asks for an id just when its path names it, and every id is named by the path that
encodes it but for the empty one and the dots, which no request reaches. -/
theorem ids_addressed (id : String) : Addressed parser client id where
  confirm := fun req => by rw [asks_confirm_iff, idRoute_iff]
  orders := fun req => by rw [asks_orders_iff, idRoute_iff]
  written := fun h ifNoneMatch => by
    constructor
    · exact asks_confirm_iff.mpr ⟨rfl, idRoute_pathTo pathWord_carts pathWord_confirm h⟩
    · exact asks_orders_iff.mpr ⟨rfl, idRoute_pathTo pathWord_devices pathWord_orders h⟩

end VoiceOrder.Api
