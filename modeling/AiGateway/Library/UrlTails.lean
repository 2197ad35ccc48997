import AiGateway.Library.SentUrls

/-!
# URLs of which a client wrote the end

A text is put behind the path of a base, or behind its query. The URL that is sent is the base
with a given tail only if the text is the decoded tail, and writing it gives the tail back.
-/

namespace AiGateway.Library
namespace UrlWriter
variable (writer : UrlWriter)

def spelledTail (query : Bool) (tail : List UInt8) : List UInt8 :=
  if query then writer.querySet.encode tail else writer.pathSet.encode (tail.map toSlash)

/-- Nothing of a tail is dropped that stands behind a slash of the path, or of the query. -/
structure KeptTail (query : Bool) (tail : List UInt8) : Prop where
  closed : tail.rdropWhile isSpace = tail
  visible : ∀ b ∈ tail, isIgnored b = false ∧ b ≠ 35
  undotted : query = false →
    ∀ seg ∈ (tail.splitOnP isSlash).map writer.pathSet.encode, isDotted seg = false

/-- A tail that is sent as it is written, if it is handed over decoded. -/
structure WellWritten (query : Bool) (tail : List UInt8) : Prop where
  escaped : (if query then writer.querySet else writer.pathSet).wellEscaped tail = true
  visible : ∀ b ∈ percentDecode tail, isIgnored b = false ∧ b ≠ 35
  closed : ∀ b ∈ (percentDecode tail).getLast?, 32 < b
  path : query = false → (∀ b ∈ percentDecode tail, b ≠ 92 ∧ b ≠ 63) ∧
    ∀ seg ∈ tail.splitOnP isSlash, isDotted seg = false

theorem takeWhile_mark {front : List UInt8} (h : 63 ∈ front) (back : List UInt8) :
    (front ++ back).takeWhile (· ≠ 63) = front.takeWhile (· ≠ 63) ∧
      (front ++ back).dropWhile (· ≠ 63) = front.dropWhile (· ≠ 63) ++ back := by
  induction front with
  | nil => cases h
  | cons b front ih =>
    by_cases hb : b = 63
    · rw [hb]
      exact ⟨rfl, rfl⟩
    · have hmem : 63 ∈ front := (List.mem_cons.mp h).resolve_left (Ne.symm hb)
      have hkeep : decide (b ≠ 63) = true := decide_eq_true hb
      obtain ⟨htake, hdrop⟩ := ih hmem
      constructor
      · simp only [List.cons_append, List.takeWhile_cons, hkeep, htake]
      · simp only [List.cons_append, List.dropWhile_cons, hkeep, if_true, hdrop]

theorem takeWhile_markless {text : List UInt8} (h : 63 ∉ text) :
    text.takeWhile (· ≠ 63) = text ∧ text.dropWhile (· ≠ 63) = [] := by
  have hall : ∀ b ∈ text, decide (b ≠ 63) = true :=
    fun b hb => decide_eq_true fun heq => h (heq ▸ hb)
  exact ⟨List.takeWhile_eq_self_iff.mpr hall, List.dropWhile_eq_nil_iff.mpr hall⟩

theorem markless_append {front tail : List UInt8} (hfront : 63 ∉ front) (htail : 63 ∉ tail) :
    63 ∉ front ++ 47 :: tail := by
  simp [hfront, htail]

theorem spelled_append {front tail : List UInt8} (h : 63 ∈ front ∨ 63 ∉ tail) :
    writer.spelled (front ++ 47 :: tail) =
      writer.spelled (front ++ [47]) ++ writer.spelledTail (front.contains 63) tail := by
  by_cases hmark : 63 ∈ front
  · have hquery : front.contains 63 = true := List.contains_iff_mem.mpr hmark
    obtain ⟨query, hdrop⟩ := (query_cases front).resolve_left fun hnone => hnone.1 hmark
    rw [spelled, spelled, (takeWhile_mark hmark _).1, (takeWhile_mark hmark _).1,
      (takeWhile_mark hmark _).2, (takeWhile_mark hmark _).2, hdrop, spelledTail, if_pos hquery]
    have hquery : ∀ x, writer.writeQuery (63 :: query ++ x) =
        63 :: (writer.querySet.encode query ++ writer.querySet.encode x) :=
      fun x => congrArg _ (writer.querySet.encode_append query x)
    have htail := writer.querySet.encode_append [47] tail
    rw [List.singleton_append] at htail
    rw [hquery, hquery, htail, List.append_assoc, List.cons_append, List.append_assoc]
  · have htail := h.resolve_left hmark
    have hquery : front.contains 63 = false := by simpa using hmark
    have hwhole := takeWhile_markless (markless_append hmark htail)
    have hbase := takeWhile_markless (markless_append hmark (List.not_mem_nil (a := 63)))
    rw [spelled, spelled, hwhole.1, hwhole.2, hbase.1, hbase.2, spelledTail, hquery,
      if_neg Bool.false_ne_true, writeQuery, List.append_nil, List.append_nil,
      ← EscapeSet.encode_append, ← List.map_append, List.append_assoc, List.singleton_append]

/-- The segments of a tail come behind the ones of the path. -/
theorem segments_append {front tail : List UInt8} (hroot : ∀ b ∈ front.head?, b = 47) :
    ∃ segs, writer.segments (front ++ 47 :: tail) =
        segs ++ (tail.splitOnP isSlash).map writer.pathSet.encode ∧
      writer.segments (front ++ [47]) = segs ++ [[]] := by
  match front with
  | [] => exact ⟨[], rfl, rfl⟩
  | b :: path =>
    refine ⟨(path.splitOnP isSlash).map writer.pathSet.encode, ?_, ?_⟩
    · rw [segments, List.drop_one, List.cons_append, List.tail_cons,
        List.splitOnP_append_cons path tail rfl, List.map_append]
    · rw [segments, List.drop_one, List.cons_append, List.tail_cons,
        List.splitOnP_append_cons path [] rfl, List.map_append]
      rfl

theorem kept_append_iff {front tail : List UInt8} (hroot : ∀ b ∈ front.head?, b = 47)
    (h : 63 ∈ front ∨ 63 ∉ tail) :
    writer.Kept (front ++ 47 :: tail) ↔
      writer.Kept (front ++ [47]) ∧ writer.KeptTail (front.contains 63) tail := by
  have hclosed : (front ++ 47 :: tail).rdropWhile isSpace = front ++ 47 :: tail ↔
      tail.rdropWhile isSpace = tail := by
    rw [rdropWhile_append_cons rfl, List.append_right_inj, List.cons_inj_right]
  have hundotted : (∀ seg ∈ writer.segments ((front ++ 47 :: tail).takeWhile (· ≠ 63)),
        isDotted seg = false) ↔
      (∀ seg ∈ writer.segments ((front ++ [47]).takeWhile (· ≠ 63)), isDotted seg = false) ∧
        (front.contains 63 = false →
          ∀ seg ∈ (tail.splitOnP isSlash).map writer.pathSet.encode, isDotted seg = false) := by
    by_cases hmark : 63 ∈ front
    · rw [(takeWhile_mark hmark _).1, (takeWhile_mark hmark _).1,
        List.contains_iff_mem.mpr hmark]
      exact ⟨fun hall => ⟨hall, fun hquery => by cases hquery⟩, fun hall => hall.1⟩
    · have htail := h.resolve_left hmark
      have hquery : front.contains 63 = false := by simpa using hmark
      obtain ⟨segs, hwhole, hbase⟩ := writer.segments_append hroot
      rw [(takeWhile_markless (markless_append hmark htail)).1,
        (takeWhile_markless (markless_append hmark List.not_mem_nil)).1, hwhole, hbase, hquery]
      constructor
      · intro hall
        obtain ⟨hsegs, hrest⟩ := List.forall_mem_append.mp hall
        exact ⟨List.forall_mem_append.mpr ⟨hsegs, List.forall_mem_singleton.mpr rfl⟩,
          fun _ => hrest⟩
      · intro hall
        exact List.forall_mem_append.mpr ⟨(List.forall_mem_append.mp hall.1).1, hall.2 rfl⟩
  constructor
  · intro hkept
    obtain ⟨hfront, hslash⟩ := List.forall_mem_append.mp hkept.visible
    obtain ⟨hdots, htail⟩ := hundotted.mp hkept.undotted
    refine ⟨⟨rdropWhile_append_cons rfl front [], ?_, hdots⟩,
      hclosed.mp hkept.closed, (List.forall_mem_cons.mp hslash).2, htail⟩
    exact List.forall_mem_append.mpr ⟨hfront, List.forall_mem_singleton.mpr (by decide)⟩
  · intro hkept
    obtain ⟨hbase, htail⟩ := hkept
    refine ⟨hclosed.mpr htail.closed, ?_, hundotted.mpr ⟨hbase.undotted, htail.undotted⟩⟩
    exact List.forall_mem_append.mpr ⟨(List.forall_mem_append.mp hbase.visible).1,
      List.forall_mem_cons.mpr ⟨by decide, htail.visible⟩⟩

theorem splitOnP_append_of_none {p : UInt8 → Bool} {front : List UInt8}
    (h : ∀ b ∈ front, p b = false) (back : List UInt8) :
    (front ++ back).splitOnP p = (back.splitOnP p).modifyHead (front ++ ·) := by
  induction front with
  | nil => exact (congrFun List.modifyHead_id _).symm
  | cons b front ih =>
    obtain ⟨hb, hfront⟩ := List.forall_mem_cons.mp h
    rw [List.cons_append, List.splitOnP_cons_eq_if_modifyHead, hb, if_neg Bool.false_ne_true,
      ih hfront, List.modifyHead_modifyHead]
    rfl

theorem isSlash_escapeOf (b : UInt8) : ∀ c ∈ escapeOf b, isSlash c = false := by
  have hall : ∀ n : Fin 256, ((escapeOf (UInt8.ofNat n.val)).all fun c => !isSlash c) = true := by
    decide +kernel
  intro c hc
  have hb := hall ⟨b.toNat, b.toNat_lt⟩
  rw [UInt8.ofNat_toNat] at hb
  have hslash := List.all_eq_true.mp hb c hc
  rwa [Bool.not_eq_true'] at hslash

/-- Escapes do not change where the segments end. -/
theorem splitOnP_encode (set : EscapeSet) {tail : List UInt8} (h : ∀ b ∈ tail, b ≠ 92) :
    (set.encode tail).splitOnP isSlash = (tail.splitOnP isSlash).map set.encode := by
  induction tail with
  | nil => rfl
  | cons b tail ih =>
    obtain ⟨hb, htail⟩ := List.forall_mem_cons.mp h
    have hmodify : ∀ (written : List UInt8), (∀ x, set.encode (b :: x) = written ++ set.encode x) →
        ((tail.splitOnP isSlash).map set.encode).modifyHead (written ++ ·) =
          ((tail.splitOnP isSlash).modifyHead (b :: ·)).map set.encode := by
      intro written hwritten
      obtain ⟨seg, segs, hsegs⟩ := List.exists_cons_of_ne_nil (List.splitOnP_ne_nil isSlash tail)
      rw [hsegs]
      simp only [List.map_cons, List.modifyHead_cons, hwritten]
    rw [List.splitOnP_cons_eq_if_modifyHead]
    by_cases hslash : b = 47
    · rw [hslash, set.encode_cons_plain set.slash, List.splitOnP_cons_eq_if_modifyHead, ih htail]
      rfl
    · have hnone : isSlash b = false := by
        simp [isSlash, hslash, hb]
      rw [hnone, if_neg Bool.false_ne_true]
      cases hescapes : set.escapes b with
      | true =>
        rw [set.encode_cons_escaped hescapes, splitOnP_append_of_none (isSlash_escapeOf b),
          ih htail, hmodify _ (set.encode_cons_escaped hescapes)]
      | false =>
        rw [set.encode_cons_plain hescapes, List.splitOnP_cons_eq_if_modifyHead, hnone,
          if_neg Bool.false_ne_true, ih htail]
        exact hmodify [b] (set.encode_cons_plain hescapes)

theorem map_toSlash_iff {bytes : List UInt8} :
    bytes.map toSlash = bytes ↔ ∀ b ∈ bytes, b ≠ 92 := by
  have hid : bytes.map toSlash = bytes ↔ bytes.map toSlash = bytes.map id := by rw [List.map_id]
  rw [hid, List.map_inj_left]
  refine forall₂_congr fun b _ => ?_
  unfold toSlash
  split
  · next hb => simp [hb]
  · next hb => simp [hb]

theorem wellWritten_iff {query : Bool} {tail : List UInt8} :
    writer.WellWritten query tail ↔
      writer.KeptTail query (percentDecode tail) ∧
        writer.spelledTail query (percentDecode tail) = tail ∧
        (query = false → 63 ∉ percentDecode tail) := by
  have hclosed : (percentDecode tail).rdropWhile isSpace = percentDecode tail ↔
      ∀ b ∈ (percentDecode tail).getLast?, 32 < b := by
    rw [List.rdropWhile_eq_self_iff]
    constructor
    · intro hlast b hb
      obtain ⟨hne, rfl⟩ := List.mem_getLast?_eq_getLast hb
      refine UInt8.not_le.mp fun hle => hlast hne ?_
      exact decide_eq_true hle
    · intro hlarge hne
      rw [isSpace_large (hlarge _ (List.getLast?_eq_some_getLast hne))]
      exact Bool.false_ne_true
  cases query with
  | true =>
    rw [spelledTail, if_pos rfl, EscapeSet.encode_percentDecode_iff]
    constructor
    · intro hwritten
      exact ⟨⟨hclosed.mpr hwritten.closed, hwritten.visible, fun hquery => by cases hquery⟩,
        hwritten.escaped, fun hquery => by cases hquery⟩
    · intro hkept
      exact ⟨hkept.2.1, hkept.1.visible, hclosed.mp hkept.1.closed, fun hquery => by cases hquery⟩
  | false =>
    rw [spelledTail, if_neg Bool.false_ne_true]
    constructor
    · intro hwritten
      obtain ⟨hplain, hdots⟩ := hwritten.path rfl
      have hslash : ∀ b ∈ percentDecode tail, b ≠ 92 := fun b hb => (hplain b hb).1
      have hspelled : writer.pathSet.encode (percentDecode tail) = tail :=
        (EscapeSet.encode_percentDecode_iff _).mpr hwritten.escaped
      refine ⟨⟨hclosed.mpr hwritten.closed, hwritten.visible, fun _ => ?_⟩, ?_, fun _ hmark => ?_⟩
      · rw [← splitOnP_encode _ hslash, hspelled]
        exact hdots
      · rw [map_toSlash_iff.mpr hslash]
        exact hspelled
      · exact (hplain 63 hmark).2 rfl
    · intro hkept
      obtain ⟨htail, hspelled, hmark⟩ := hkept
      -- a backslash would come back as a slash
      have hsame : (percentDecode tail).map toSlash = percentDecode tail := by
        have hdecoded := congrArg percentDecode hspelled
        rw [EscapeSet.percentDecode_encode] at hdecoded
        have hwhole : percentDecode ((percentDecode tail).map toSlash) =
            (percentDecode tail).map toSlash := by
          refine percentDecode_eq_of_length ?_
          unfold decodedLength
          rw [hdecoded, List.length_map]
        exact hwhole.symm.trans hdecoded
      rw [hsame] at hspelled
      have hslash := map_toSlash_iff.mp hsame
      refine ⟨(EscapeSet.encode_percentDecode_iff _).mp hspelled, htail.visible,
        hclosed.mp htail.closed, fun _ => ⟨fun b hb => ⟨hslash b hb, fun heq => ?_⟩, ?_⟩⟩
      · exact hmark rfl (heq ▸ hb)
      · rw [← hspelled, splitOnP_encode _ hslash]
        exact htail.undotted rfl

/-! ### What is sent -/

theorem spelled_grows (text : List UInt8) : text.length ≤ (writer.spelled text).length := by
  have hparts := congrArg List.length (@List.takeWhile_append_dropWhile _
    (fun b : UInt8 => decide (b ≠ 63)) text)
  have hpath := writer.pathSet.encode_length ((text.takeWhile (· ≠ 63)).map toSlash)
  have hquery : ∀ query, query.length ≤ (writer.writeQuery query).length := by
    intro query
    match query with
    | [] => exact Nat.le_refl _
    | mark :: query => exact Nat.succ_le_succ (writer.querySet.encode_length query)
  have hgrows := hquery (text.dropWhile (· ≠ 63))
  rw [List.length_append] at hparts
  rw [List.length_map] at hpath
  rw [spelled, List.length_append]
  omega

theorem mark_spelled {text : List UInt8} (h : 63 ∈ text) : 63 ∈ writer.spelled text := by
  obtain ⟨query, hdrop⟩ := (query_cases text).resolve_left fun hnone => hnone.1 h
  rw [spelled, hdrop]
  exact List.mem_append_right _ (List.mem_cons_self ..)

/-- A path that comes back with something behind it is spelled out already. -/
theorem spelled_of_append {front tail rest : List UInt8}
    (h : writer.spelled (front ++ [47]) ++ tail = front ++ 47 :: rest) :
    writer.spelled (front ++ [47]) = front ++ [47] ∧ tail = rest := by
  have hgrows := writer.spelled_grows (front ++ [47])
  have hlength := writer.spelled_length (front ++ [47])
  have hsplit : front ++ 47 :: rest = (front ++ [47]) ++ rest := by
    rw [List.append_assoc]
    rfl
  rw [hsplit] at h
  rcases List.append_eq_append_iff.mp h with ⟨more, hwhole, hrest⟩ | ⟨more, hwhole, hrest⟩
  · have hshort := (congrArg List.length hwhole).trans List.length_append
    have hnil : more = [] := List.length_eq_zero_iff.mp (by omega)
    rw [hnil, List.append_nil] at hwhole
    rw [hnil, List.nil_append] at hrest
    exact ⟨hwhole.symm, hrest⟩
  · have hmore : decodedLength more = 0 := by
      rw [hwhole, List.append_assoc, List.singleton_append, decodedLength_append_cons _ rfl,
        decodedLength_append_cons _ rfl] at hlength
      have hnil : decodedLength [] = 0 := rfl
      omega
    have hnil := decodedLength_eq_zero_iff.mp hmore
    rw [hnil, List.append_nil] at hwhole
    rw [hnil, List.nil_append] at hrest
    exact ⟨hwhole, hrest.symm⟩

section
variable {front tail rest : List UInt8} (hroot : ∀ b ∈ front.head?, b = 47)

theorem exists_slash (front tail : List UInt8) (hroot : ∀ b ∈ front.head?, b = 47) :
    ∃ rest, front ++ 47 :: tail = 47 :: rest := by
  match front with
  | [] => exact ⟨tail, rfl⟩
  | b :: path =>
    rw [hroot b rfl]
    exact ⟨path ++ 47 :: tail, rfl⟩

include hroot

theorem writeTarget_length_append
    (h : writer.writeTarget (cleanText (front ++ 47 :: tail)) = front ++ 47 :: rest) :
    decodedLength rest ≤ decodedLength tail := by
  obtain ⟨text, htext⟩ := exists_slash front tail hroot
  have hlength := congrArg decodedLength h
  have hwhole := decodedLength_append_cons front (b := 47) rfl tail
  rw [decodedLength_append_cons front rfl] at hlength
  rw [htext] at hlength hwhole
  rcases writer.writeTarget_cases text with hkept | hless
  · rw [writer.writeTarget_kept hkept, writer.spelled_length] at hlength
    omega
  · omega

theorem writeTarget_append_iff (hsuffix : tail <:+ percentDecode rest) (hmark : 63 ∉ rest) :
    writer.writeTarget (cleanText (front ++ 47 :: tail)) = front ++ 47 :: rest ↔
      writer.writeTarget (cleanText (front ++ [47])) = front ++ [47] ∧
        tail = percentDecode rest ∧ writer.WellWritten (front.contains 63) rest := by
  obtain ⟨text, htext⟩ := exists_slash front tail hroot
  obtain ⟨base, hbase⟩ := exists_slash front [] hroot
  have hquery : ∀ {x : List UInt8}, (front.contains 63 = false → 63 ∉ x) → 63 ∈ front ∨ 63 ∉ x := by
    intro x hx
    cases hcontains : front.contains 63 with
    | true => exact Or.inl (List.contains_iff_mem.mp hcontains)
    | false => exact Or.inr (hx hcontains)
  constructor
  · intro h
    have hle := writer.writeTarget_length_append hroot h
    have hshort := hsuffix.length_le
    have htail := decodedLength_le tail
    have hwhole : tail = percentDecode rest := by
      refine hsuffix.eq_of_length ?_
      unfold decodedLength at hle htail
      omega
    have hlength := congrArg decodedLength h
    rw [decodedLength_append_cons front rfl] at hlength
    have hkept : writer.Kept (front ++ 47 :: tail) := by
      have hsame := decodedLength_append_cons front (b := 47) rfl tail
      rw [htext] at hlength hsame ⊢
      refine (writer.writeTarget_cases text).resolve_right fun hless => ?_
      unfold decodedLength at hle htail hlength hsame hless
      omega
    have hspelled : writer.spelled (front ++ 47 :: tail) = front ++ 47 :: rest := by
      rw [← h]
      rw [htext] at hkept ⊢
      exact (writer.writeTarget_kept hkept).symm
    have hmarks : 63 ∈ front ∨ 63 ∉ tail := by
      by_cases hfront : 63 ∈ front
      · exact Or.inl hfront
      · refine Or.inr fun hmem => ?_
        have hwritten := writer.mark_spelled
          (List.mem_append_right front (List.mem_cons_of_mem 47 hmem))
        rw [hspelled] at hwritten
        exact markless_append hfront hmark hwritten
    obtain ⟨hkeptBase, hkeptTail⟩ := (writer.kept_append_iff hroot hmarks).mp hkept
    rw [writer.spelled_append hmarks] at hspelled
    obtain ⟨hsame, hrest⟩ := writer.spelled_of_append hspelled
    refine ⟨?_, hwhole, ?_⟩
    · rw [hbase] at hkeptBase hsame ⊢
      rw [writer.writeTarget_kept hkeptBase, hsame]
    · rw [hwhole] at hkeptTail hrest hmarks
      refine writer.wellWritten_iff.mpr ⟨hkeptTail, hrest, fun hnone => ?_⟩
      refine hmarks.resolve_left fun hfront => ?_
      rw [List.contains_iff_mem.mpr hfront] at hnone
      cases hnone
  · intro h
    obtain ⟨hsame, hwhole, hwritten⟩ := h
    obtain ⟨hkeptTail, hrest, hnone⟩ := writer.wellWritten_iff.mp hwritten
    rw [← hwhole] at hkeptTail hrest hnone
    have hmarks := hquery hnone
    have hkeptBase : writer.Kept (front ++ [47]) := by
      rw [hbase] at hsame ⊢
      refine (writer.writeTarget_cases base).resolve_right fun hless => ?_
      rw [hsame] at hless
      exact Nat.lt_irrefl _ hless
    have hkept := (writer.kept_append_iff hroot hmarks).mpr ⟨hkeptBase, hkeptTail⟩
    have hspelledBase : writer.spelled (front ++ [47]) = front ++ [47] := by
      rw [hbase] at hkeptBase hsame ⊢
      rw [← writer.writeTarget_kept hkeptBase, hsame]
    have hspelled := writer.spelled_append hmarks
    rw [hspelledBase, hrest, List.append_assoc, List.singleton_append] at hspelled
    rw [← hspelled]
    rw [htext] at hkept ⊢
    exact writer.writeTarget_kept hkept

end

/-- When a text that is split at its host is sent as another with the same host. -/
theorem sends_eq_iff {name : List UInt8} (hname : HostText name) (secure : Bool) (slashes : ℕ)
    (rest rest' : List UInt8) :
    writer.sends (schemeText secure ++ (List.replicate slashes 47 ++ (name ++ 47 :: rest))) =
        some (schemeText secure ++ [47, 47] ++ name ++ 47 :: rest') ↔
      writer.host secure name = some name ∧ writer.writeTarget (cleanText (47 :: rest)) = 47 :: rest' ∧
        (schemeText secure ++ [47, 47] ++ name ++ 47 :: rest').length ≤ writer.limit := by
  rw [writer.sends_origin hname]
  constructor
  · intro h
    obtain ⟨sent, hsent, hurl⟩ := Option.bind_eq_some_iff.mp h
    obtain ⟨target, htarget⟩ := writer.writeTarget_slash (cleanText (47 :: rest))
    simp only [htarget] at hurl
    split at hurl
    · next hlimit =>
      rw [Option.some_inj] at hurl
      rw [hurl] at hlimit
      obtain ⟨-, hname', hrest⟩ := url_inj (writer.host_written hsent) hname hurl
      rw [hname'] at hsent
      rw [htarget, hrest]
      exact ⟨hsent, rfl, hlimit⟩
    · cases hurl
  · intro h
    obtain ⟨hsent, htarget, hlimit⟩ := h
    rw [hsent, Option.bind_some, htarget]
    exact if_pos hlimit

theorem sends_front_iff {name front : List UInt8} (hname : HostText name) (secure : Bool)
    (hroot : ∀ b ∈ front.head?, b = 47) (tail rest : List UInt8) :
    writer.sends (schemeText secure ++ [47, 47] ++ name ++ front ++ 47 :: tail) =
        some (schemeText secure ++ [47, 47] ++ name ++ front ++ 47 :: rest) ↔
      writer.host secure name = some name ∧
        writer.writeTarget (cleanText (front ++ 47 :: tail)) = front ++ 47 :: rest ∧
        (schemeText secure ++ [47, 47] ++ name ++ front ++ 47 :: rest).length ≤ writer.limit := by
  obtain ⟨text, htext⟩ := exists_slash front tail hroot
  obtain ⟨target, htarget⟩ := exists_slash front rest hroot
  have hfrom : schemeText secure ++ [47, 47] ++ name ++ front ++ 47 :: tail =
      schemeText secure ++ (List.replicate 2 47 ++ (name ++ 47 :: text)) := by
    rw [List.append_assoc _ front, htext, List.append_assoc, List.append_assoc]
    rfl
  have hto : schemeText secure ++ [47, 47] ++ name ++ front ++ 47 :: rest =
      schemeText secure ++ [47, 47] ++ name ++ 47 :: target := by
    rw [List.append_assoc _ front, htarget]
  rw [hfrom, hto, htext, htarget]
  exact writer.sends_eq_iff hname secure 2 text target

/-- When a decoded tail is sent behind a base as it was written. -/
theorem sends_behind_iff {name front tail rest : List UInt8} (hname : HostText name) (secure : Bool)
    (hroot : ∀ b ∈ front.head?, b = 47) (hsuffix : tail <:+ percentDecode rest)
    (hmark : 63 ∉ rest) :
    writer.sends (schemeText secure ++ [47, 47] ++ name ++ front ++ 47 :: tail) =
        some (schemeText secure ++ [47, 47] ++ name ++ front ++ 47 :: rest) ↔
      writer.sends (schemeText secure ++ [47, 47] ++ name ++ front ++ [47]) =
          some (schemeText secure ++ [47, 47] ++ name ++ front ++ [47]) ∧
        tail = percentDecode rest ∧ writer.WellWritten (front.contains 63) rest ∧
        (schemeText secure ++ [47, 47] ++ name ++ front ++ 47 :: rest).length ≤ writer.limit := by
  have hshorter : (schemeText secure ++ [47, 47] ++ name ++ front ++ [47]).length ≤
      (schemeText secure ++ [47, 47] ++ name ++ front ++ 47 :: rest).length := by
    simp only [List.length_append, List.length_cons, List.length_nil]
    omega
  rw [writer.sends_front_iff hname secure hroot, writer.sends_front_iff hname secure hroot,
    writer.writeTarget_append_iff hroot hsuffix hmark]
  constructor
  · intro h
    obtain ⟨hhost, ⟨hbase, htail, hwritten⟩, hlimit⟩ := h
    exact ⟨⟨hhost, hbase, hshorter.trans hlimit⟩, htail, hwritten, hlimit⟩
  · intro h
    obtain ⟨⟨hhost, hbase, -⟩, htail, hwritten, hlimit⟩ := h
    exact ⟨hhost, ⟨hbase, htail, hwritten⟩, hlimit⟩

end UrlWriter
end AiGateway.Library
