import AiGateway.Api.Captures
import AiGateway.Api.Slices

/-!
# The response body in the log (`gateway-api/src/routes/proxy.rs:369-381, 649-666, 879-892`)

The task logs what it captured if this is text as a whole. A hit logs the cached chunks that are
text each, up to 64 KiB, and a marker when there is a chunk behind these.
-/

namespace AiGateway.Api
open AiGateway.Core AiGateway.Library AiGateway.Storage

/-! ### What the hit logs -/

/-- No text is logged as none. -/
def asLogged (text : String) : Option String := if text = "" then none else some text

theorem asLogged_inj {s t : String} (h : asLogged s = asLogged t) : s = t := by
  unfold asLogged at h
  split at h
  · rename_i hs
    split at h
    · rename_i ht
      rw [hs, ht]
    · cases h
  · split at h
    · cases h
    · exact Option.some.inj h

/-- What a hit logs of the chunks. -/
def Previewed (chunks : List Bytes) (text : String) : Prop :=
  ∃ front back, bodyText chunks = front ++ back ∧
    front.utf8ByteSize = min (bodyText chunks).utf8ByteSize maxLogBodyBytes ∧
    text = front ++ previewEnd chunks 0

theorem cachedBodyPreview_iff (cached : CachedResponse) (text : String) :
    cachedBodyPreview cached = some (asLogged text) ↔ Previewed cached.chunks text := by
  have hempty : ∀ out : String, (if out.isEmpty then none else some out) = asLogged out := by
    intro out
    unfold asLogged
    exact if_congr String.isEmpty_iff rfl rfl
  unfold cachedBodyPreview
  rw [previewLoop_eq _ (Nat.zero_le _), Option.map_map, Option.map_eq_some_iff,
    String.utf8ByteSize_empty, Nat.sub_zero]
  constructor
  · rintro ⟨front, hfront, htext⟩
    obtain ⟨back, hbody, hsize⟩ := append_of_sliceTo hfront
    refine ⟨String.ofList front, String.ofList back, ?_, hsize, ?_⟩
    · rw [← String.ofList_append, ← hbody, String.ofList_toList]
    · have hlogged : asLogged ("" ++ String.ofList front ++ previewEnd cached.chunks 0) =
          asLogged text := (hempty _).symm.trans htext
      rw [← asLogged_inj hlogged, String.empty_append]
  · rintro ⟨front, back, hbody, hsize, htext⟩
    refine ⟨front.toList, ?_, ?_⟩
    · have hcut := sliceTo_append front.toList back.toList
      rw [String.ofList_toList, hsize, ← String.toList_append, ← hbody] at hcut
      exact hcut
    · have hlogged := hempty ("" ++ String.ofList front.toList ++ previewEnd cached.chunks 0)
      refine hlogged.trans ?_
      rw [String.ofList_toList, String.empty_append, htext]

/-! ### What the task logs -/

theorem isCharBoundary_of_take {s t : String} {n : ℕ} (hn : n ≤ t.utf8ByteSize)
    (h : asBytes s = (asBytes t).take n) : IsCharBoundary t n := by
  have hbytes : t.toByteArray.extract 0 n = s.toByteArray := by
    apply ByteArray.ext
    have hdata : s.toByteArray.data.toList = (t.toByteArray.data.extract 0 n).toList := by
      rw [Array.toList_extract]
      exact h
    rw [ByteArray.data_extract]
    exact (Array.toList_inj.mp hdata).symm
  unfold IsCharBoundary
  rw [String.Pos.Raw.isValid_iff_isValidUTF8_extract_zero, hbytes]
  exact ⟨hn, s.isValidUTF8⟩

theorem fromUtf8_front (front back : String) :
    fromUtf8 ((asBytes (front ++ back)).take front.utf8ByteSize) = some front := by
  rw [asBytes_append, ← asBytes_length, List.take_left' rfl, fromUtf8_asBytes]

theorem fromUtf8_inside {text : String} {n : ℕ} (hn : n ≤ text.utf8ByteSize)
    (hinside : ¬IsCharBoundary text n) : fromUtf8 ((asBytes text).take n) = none := by
  cases hdecoded : fromUtf8 ((asBytes text).take n) with
  | none => rfl
  | some s => exact absurd (isCharBoundary_of_take hn (asBytes_of_fromUtf8 hdecoded)) hinside

/-- What is logged of a capture that is no text. -/
def binaryNote : String := "[binary " ++ toString maxLogBodyBytes ++ " bytes]"

/-- The text logged of a captured body: it, or a front, or the note. -/
def capturedText (text : String) : String :=
  if text.utf8ByteSize ≤ maxLogBodyBytes then text
  else (fromUtf8 ((asBytes text).take maxLogBodyBytes)).getD binaryNote ++ truncatedMarker

theorem capturedBodyToString_eq {text : String} {buf : Bytes} {truncated : Bool}
    (h : Captured maxLogBodyBytes (asBytes text) buf truncated) :
    capturedBodyToString buf truncated = asLogged (capturedText text) := by
  have hlength := asBytes_length text
  unfold capturedText
  by_cases hfits : text.utf8ByteSize ≤ maxLogBodyBytes
  · have hall : buf = asBytes text := by
      rw [h.front, List.take_of_length_le (by omega)]
    have hflag : truncated = false := by
      rw [Bool.eq_false_iff, ne_eq, h.flag]
      omega
    rw [if_pos hfits, hall, hflag]
    unfold capturedBodyToString asLogged
    rw [fromUtf8_asBytes]
    refine if_congr ?_ rfl rfl
    rw [List.isEmpty_iff, ← List.length_eq_zero_iff, hlength, String.utf8ByteSize_eq_zero_iff]
  · have hbuf : buf.length = maxLogBodyBytes := by
      rw [h.front, List.length_take]
      omega
    have hflag : truncated = true := h.flag.mpr (by omega)
    have hnonempty : buf.isEmpty = false := by
      rw [List.isEmpty_eq_false_iff, ← List.length_pos_iff, hbuf]
      decide
    have hmarked : ∀ s : String, s ++ truncatedMarker ≠ "" := by
      intro s hs
      have hsize := congrArg String.utf8ByteSize hs
      rw [String.utf8ByteSize_append, String.utf8ByteSize_empty] at hsize
      have hmarker : truncatedMarker.utf8ByteSize = 15 := by decide
      omega
    rw [if_neg hfits, asLogged, if_neg (hmarked _), ← h.front]
    unfold capturedBodyToString
    rw [hnonempty, hflag, hbuf]
    rfl

/-! ### The chunks that are text -/

theorem bodyText_size_le (chunks : List Bytes) :
    (bodyText chunks).utf8ByteSize ≤ chunks.flatten.length := by
  induction chunks with
  | nil => exact Nat.zero_le _
  | cons data chunks ih =>
    rw [bodyText, String.utf8ByteSize_append, List.flatten_cons, List.length_append]
    cases hdata : fromUtf8 data with
    | none =>
      rw [Option.getD_none, String.utf8ByteSize_empty]
      omega
    | some s =>
      have hsize := asBytes_length s
      rw [asBytes_of_fromUtf8 hdata] at hsize
      rw [Option.getD_some]
      omega

/-- Nothing is lost exactly when every chunk is text. -/
theorem bodyText_whole_iff (chunks : List Bytes) :
    (bodyText chunks).utf8ByteSize = chunks.flatten.length ↔
      ∀ data ∈ chunks, (fromUtf8 data).isSome = true := by
  induction chunks with
  | nil => exact ⟨fun _ data hdata => (List.not_mem_nil hdata).elim, fun _ => rfl⟩
  | cons data chunks ih =>
    have hle := bodyText_size_le chunks
    rw [bodyText, String.utf8ByteSize_append, List.flatten_cons, List.length_append,
      List.forall_mem_cons, ← ih]
    cases hdata : fromUtf8 data with
    | none =>
      have hnonempty : data ≠ [] := by
        intro hnil
        rw [hnil, show fromUtf8 [] = some "" from fromUtf8_asBytes ""] at hdata
        cases hdata
      have hpos := List.length_pos_iff.mpr hnonempty
      rw [Option.getD_none, String.utf8ByteSize_empty]
      constructor
      · omega
      · exact fun h => absurd h.1 (by decide)
    | some s =>
      have hsize := asBytes_length s
      rw [asBytes_of_fromUtf8 hdata] at hsize
      rw [Option.getD_some]
      constructor
      · exact fun h => ⟨rfl, by omega⟩
      · exact fun h => by omega

theorem bodyText_eq {chunks : List Bytes} (h : ∀ data ∈ chunks, (fromUtf8 data).isSome = true) :
    asBytes (bodyText chunks) = chunks.flatten := by
  induction chunks with
  | nil => rfl
  | cons data chunks ih =>
    obtain ⟨s, hs⟩ := Option.isSome_iff_exists.mp (h data (List.mem_cons_self ..))
    rw [bodyText, asBytes_append, List.flatten_cons, hs, Option.getD_some, asBytes_of_fromUtf8 hs,
      ih fun d hd => h d (List.mem_cons_of_mem _ hd)]

theorem bodyText_append (chunks chunks' : List Bytes) :
    bodyText (chunks ++ chunks') = bodyText chunks ++ bodyText chunks' := by
  induction chunks with
  | nil => exact String.empty_append.symm
  | cons data chunks ih =>
    rw [List.cons_append, bodyText, bodyText, ih, String.append_assoc]

/-- The text of the last chunk is what the others lack. -/
theorem bodyText_last (chunks : List Bytes) :
    bodyText chunks = bodyText chunks.dropLast ++ bodyText chunks.getLast?.toList := by
  rw [← bodyText_append]
  congr 1
  cases h : chunks.getLast? with
  | none =>
    rw [List.getLast?_eq_none_iff.mp h]
    rfl
  | some last =>
    obtain ⟨front, rfl⟩ := List.getLast?_eq_some_iff.mp h
    rw [List.dropLast_concat]
    rfl

theorem bodyText_dropLast_le (chunks : List Bytes) :
    (bodyText chunks.dropLast).utf8ByteSize ≤ (bodyText chunks).utf8ByteSize := by
  have hlast := congrArg String.utf8ByteSize (bodyText_last chunks)
  rw [String.utf8ByteSize_append] at hlast
  omega

/-! ### The records -/

theorem taskRecords_responseBody {c : ProxyCall} {l : LogEnv} {log : LogBuilder}
    {ctx : StreamContext} {response : ForwardResponse} {record : RequestLogRecord}
    (h : record ∈ taskRecords c l log ctx response) :
    let capture := (captureLoop ctx.cacheShouldWrite c.env.clientOpen 0 response.body .start).1
    record.responseBody =
      capturedBodyToString capture.responseCapture capture.responseTruncated := by
  unfold taskRecords at h
  cases hloop : captureLoop ctx.cacheShouldWrite c.env.clientOpen 0 response.body .start with
  | mk capture e =>
    rw [hloop] at h
    cases e with
    | some e =>
      rw [List.eq_of_mem_singleton h]
      rfl
    | none =>
      simp only at h
      split at h
      · split at h
        · rw [List.eq_of_mem_singleton h]
          rfl
        · cases h
      · rw [List.eq_of_mem_singleton h]
        rfl

theorem hitRecord_responseBody {c : ProxyCall} {l : LogEnv} {log : LogBuilder}
    {route : RouteConfig} {cached : CachedResponse} {record : RequestLogRecord}
    (h : hitRecord c l log route cached = some record) :
    cachedBodyPreview cached = some record.responseBody := by
  obtain ⟨preview, hpreview, rfl⟩ := Option.map_eq_some_iff.mp h
  rw [hpreview]
  cases cached.servedBy with
  | none => rfl
  | some provider => rfl

/-! ### Alike for a miss and a hit -/

theorem truncatedMarker_size : truncatedMarker.utf8ByteSize = 15 := by decide

theorem binaryNote_size : binaryNote.utf8ByteSize = 20 := by decide

theorem previewEnd_zero (chunks : List Bytes) : previewEnd chunks 0 =
    if maxLogBodyBytes ≤ (bodyText chunks.dropLast).utf8ByteSize then truncatedMarker else "" := by
  unfold previewEnd
  refine if_congr ?_ rfl rfl
  rw [Nat.zero_add]
  constructor
  · exact fun h => h.2
  · refine fun h => ⟨fun hnil => ?_, h⟩
    rw [hnil] at h
    exact absurd h (by decide)

section
variable {chunks : List Bytes} {text : String}

/-- A body that fits is logged by the hit when no chunk of it is lost. -/
theorem previewed_short (hbody : chunks.flatten = asBytes text)
    (hfits : text.utf8ByteSize ≤ maxLogBodyBytes) :
    Previewed chunks text ↔ (∀ data ∈ chunks, (fromUtf8 data).isSome = true) ∧
      (text.utf8ByteSize = maxLogBodyBytes → chunks.getLast? ≠ some []) := by
  have hlength : chunks.flatten.length = text.utf8ByteSize := by
    rw [hbody, asBytes_length]
  have hle := bodyText_size_le chunks
  have hdrop := bodyText_dropLast_le chunks
  constructor
  · rintro ⟨front, back, -, hsize, htext⟩
    have hshort : ¬maxLogBodyBytes ≤ (bodyText chunks.dropLast).utf8ByteSize := by
      intro hlong
      have hmarked := congrArg String.utf8ByteSize htext
      rw [previewEnd_zero, if_pos hlong, String.utf8ByteSize_append, truncatedMarker_size] at hmarked
      omega
    rw [previewEnd_zero, if_neg hshort, String.append_empty] at htext
    rw [← htext] at hsize
    refine ⟨(bodyText_whole_iff chunks).mp (by omega), fun hfull hlast => hshort ?_⟩
    have hwhole := congrArg String.utf8ByteSize (bodyText_last chunks)
    rw [hlast, String.utf8ByteSize_append] at hwhole
    have hnothing : (bodyText (some ([] : Bytes)).toList).utf8ByteSize = 0 := by decide
    omega
  · rintro ⟨hchunks, hlast⟩
    have hwhole : bodyText chunks = text := asBytes_injective ((bodyText_eq hchunks).trans hbody)
    have hshort : ¬maxLogBodyBytes ≤ (bodyText chunks.dropLast).utf8ByteSize := by
      intro hlong
      rw [hwhole] at hdrop
      have hfull : text.utf8ByteSize = maxLogBodyBytes := by omega
      have hlack := congrArg String.utf8ByteSize (bodyText_last chunks)
      rw [hwhole, String.utf8ByteSize_append] at hlack
      cases hend : chunks.getLast? with
      | none =>
        rw [List.getLast?_eq_none_iff.mp hend] at hlong
        exact absurd hlong (by decide)
      | some data =>
        obtain ⟨s, hs⟩ := Option.isSome_iff_exists.mp (hchunks data (List.mem_of_getLast? hend))
        have hempty : (bodyText chunks.getLast?.toList).utf8ByteSize = s.utf8ByteSize := by
          rw [hend]
          show ((fromUtf8 data).getD "" ++ "").utf8ByteSize = _
          rw [hs, Option.getD_some, String.append_empty]
        have hnothing : data.length = 0 := by
          rw [← asBytes_of_fromUtf8 hs, asBytes_length]
          omega
        exact hlast hfull (hend.trans (congrArg some (List.length_eq_zero_iff.mp hnothing)))
    refine ⟨text, "", ?_, ?_, ?_⟩
    · rw [hwhole, String.append_empty]
    · rw [hwhole]
      omega
    · rw [previewEnd_zero, if_neg hshort, String.append_empty]

/-- The hit logs a front of 64 KiB with the marker when the chunks begin with it and there is a
chunk behind it. -/
theorem previewed_marked {front : String} (hfront : front.utf8ByteSize = maxLogBodyBytes) :
    Previewed chunks (front ++ truncatedMarker) ↔
      maxLogBodyBytes ≤ (bodyText chunks.dropLast).utf8ByteSize ∧
        ∃ rest, bodyText chunks = front ++ rest := by
  have hdrop := bodyText_dropLast_le chunks
  constructor
  · rintro ⟨cut, back, hcut, hsize, htext⟩
    have hsizes := congrArg String.utf8ByteSize htext
    by_cases hlong : maxLogBodyBytes ≤ (bodyText chunks.dropLast).utf8ByteSize
    · rw [previewEnd_zero, if_pos hlong, String.append_left_inj] at htext
      exact ⟨hlong, back, htext ▸ hcut⟩
    · rw [previewEnd_zero, if_neg hlong, String.append_empty, String.utf8ByteSize_append,
        truncatedMarker_size] at hsizes
      omega
  · rintro ⟨hlong, rest, hrest⟩
    refine ⟨front, rest, hrest, ?_, ?_⟩
    · omega
    · rw [previewEnd_zero, if_pos hlong]

/-- The hit logs the note when the chunks spell it. -/
theorem previewed_note : Previewed chunks (binaryNote ++ truncatedMarker) ↔
    bodyText chunks = binaryNote ++ truncatedMarker := by
  have hdrop := bodyText_dropLast_le chunks
  have hnote : (binaryNote ++ truncatedMarker).utf8ByteSize = 35 := by
    rw [String.utf8ByteSize_append, binaryNote_size, truncatedMarker_size]
  have hlimit : maxLogBodyBytes = 65536 := rfl
  constructor
  · rintro ⟨cut, back, hcut, hsize, htext⟩
    have hsizes := congrArg String.utf8ByteSize htext
    by_cases hlong : maxLogBodyBytes ≤ (bodyText chunks.dropLast).utf8ByteSize
    · rw [hnote, String.utf8ByteSize_append] at hsizes
      omega
    · rw [previewEnd_zero, if_neg hlong, String.append_empty] at htext
      rw [← htext] at hsize hcut
      have hwhole := congrArg String.utf8ByteSize hcut
      rw [String.utf8ByteSize_append] at hwhole
      have hback : back = "" := String.utf8ByteSize_eq_zero_iff.mp (by omega)
      rw [hcut, hback, String.append_empty]
  · intro hspelled
    rw [hspelled, hnote] at hdrop
    refine ⟨binaryNote ++ truncatedMarker, "", ?_, ?_, ?_⟩
    · rw [hspelled, String.append_empty]
    · rw [hspelled, hnote]
      decide
    · rw [previewEnd_zero, if_neg (by omega), String.append_empty]

end

/-- The log of a body is the body, or a front of it and the marker. -/
def LogOf (text : String) (logged : Option String) : Prop :=
  if text.utf8ByteSize ≤ maxLogBodyBytes then logged = asLogged text
  else ∃ front back, text = front ++ back ∧ front ≠ "" ∧ logged = some (front ++ truncatedMarker)

/-- When the chunks of a text are logged faithfully and alike. -/
inductive LogsAlike (text : String) (chunks : List Bytes) : Prop
  /-- it fits, every chunk is text, and none comes behind the limit -/
  | short (hfits : text.utf8ByteSize ≤ maxLogBodyBytes)
      (hchunks : ∀ data ∈ chunks, (fromUtf8 data).isSome = true)
      (hlast : text.utf8ByteSize = maxLogBodyBytes → chunks.getLast? ≠ some [])
  /-- a character ends at the limit, the chunks that are text begin as the text does, and there is
  a chunk behind those that reach the limit -/
  | long (front rest rest' : String) (hfront : front.utf8ByteSize = maxLogBodyBytes)
      (hrest : rest ≠ "") (htext : text = front ++ rest) (hchunks : bodyText chunks = front ++ rest')
      (hnext : maxLogBodyBytes ≤ (bodyText chunks.dropLast).utf8ByteSize)
  /-- a character crosses the limit, but the text begins with the note, and the chunks that are
  text spell it -/
  | note (rest : String) (hlong : maxLogBodyBytes < text.utf8ByteSize)
      (hinside : ¬IsCharBoundary text maxLogBodyBytes) (htext : text = binaryNote ++ rest)
      (hchunks : bodyText chunks = binaryNote ++ truncatedMarker)

theorem asLogged_marked (s : String) : asLogged (s ++ truncatedMarker) = some (s ++ truncatedMarker) := by
  refine if_neg fun h => ?_
  have hsize := congrArg String.utf8ByteSize h
  rw [String.utf8ByteSize_append, String.utf8ByteSize_empty, truncatedMarker_size] at hsize
  omega

theorem front_unique {front front' rest rest' : String} (h : front ++ rest = front' ++ rest')
    (hsize : front.utf8ByteSize = front'.utf8ByteSize) : front = front' := by
  rcases append_eq_append h with ⟨mid, hfront, -⟩ | ⟨mid, hfront, -⟩
  · have hsizes := congrArg String.utf8ByteSize hfront
    rw [String.utf8ByteSize_append] at hsizes
    have hmid : mid = "" := String.utf8ByteSize_eq_zero_iff.mp (by omega)
    rw [hfront, hmid, String.append_empty]
  · have hsizes := congrArg String.utf8ByteSize hfront
    rw [String.utf8ByteSize_append] at hsizes
    have hmid : mid = "" := String.utf8ByteSize_eq_zero_iff.mp (by omega)
    rw [hfront, hmid, String.append_empty]

section
variable {text : String} {chunks : List Bytes}

theorem alike_short (hbody : chunks.flatten = asBytes text)
    (hfits : text.utf8ByteSize ≤ maxLogBodyBytes) :
    LogOf text (asLogged (capturedText text)) ∧ Previewed chunks (capturedText text) ↔
      LogsAlike text chunks := by
  have hall : capturedText text = text := if_pos hfits
  have hlog : LogOf text (asLogged text) := by
    unfold LogOf
    rw [if_pos hfits]
  rw [hall, previewed_short hbody hfits]
  constructor
  · rintro ⟨-, hchunks, hlast⟩
    exact .short hfits hchunks hlast
  · intro h
    cases h with
    | short _ hchunks hlast => exact ⟨hlog, hchunks, hlast⟩
    | long front rest rest' hfront hrest htext _ _ =>
      have hsize := congrArg String.utf8ByteSize htext
      rw [String.utf8ByteSize_append] at hsize
      have hpos : rest.utf8ByteSize ≠ 0 := fun h => hrest (String.utf8ByteSize_eq_zero_iff.mp h)
      omega
    | note rest hlong _ _ _ => omega

/-- A text with a front that ends at the limit. -/
theorem alike_long {front rest : String} (hfront : front.utf8ByteSize = maxLogBodyBytes)
    (htext : text = front ++ rest) (hlong : maxLogBodyBytes < text.utf8ByteSize) :
    LogOf text (asLogged (capturedText text)) ∧ Previewed chunks (capturedText text) ↔
      LogsAlike text chunks := by
  have hcaptured : capturedText text = front ++ truncatedMarker := by
    unfold capturedText
    rw [if_neg (by omega), htext, ← hfront, fromUtf8_front, Option.getD_some]
  have hnonempty : front ≠ "" := by
    intro h
    rw [h] at hfront
    exact absurd hfront (by decide)
  have hlog : LogOf text (asLogged (front ++ truncatedMarker)) := by
    unfold LogOf
    rw [if_neg (by omega), asLogged_marked]
    exact ⟨front, rest, htext, hnonempty, rfl⟩
  rw [hcaptured, previewed_marked hfront]
  constructor
  · rintro ⟨-, hnext, rest', hchunks⟩
    refine .long front rest rest' hfront (fun h => ?_) htext hchunks hnext
    rw [htext, h, String.append_empty] at hlong
    omega
  · intro h
    cases h with
    | short hfits _ _ => omega
    | long front' rest₁ rest' hfront' _ htext' hchunks hnext =>
      have hsame : front = front' :=
        front_unique (htext.symm.trans htext') (hfront.trans hfront'.symm)
      exact ⟨hlog, hnext, rest', hsame ▸ hchunks⟩
    | note rest₁ _ hinside _ _ =>
      exact absurd (isCharBoundary_iff.mpr ⟨front, rest, htext, hfront⟩) hinside

/-- A text with a character across the limit. -/
theorem alike_note (hlong : maxLogBodyBytes < text.utf8ByteSize)
    (hinside : ¬IsCharBoundary text maxLogBodyBytes) :
    LogOf text (asLogged (capturedText text)) ∧ Previewed chunks (capturedText text) ↔
      LogsAlike text chunks := by
  have hcaptured : capturedText text = binaryNote ++ truncatedMarker := by
    unfold capturedText
    rw [if_neg (by omega), fromUtf8_inside hlong.le hinside, Option.getD_none]
  rw [hcaptured, previewed_note, asLogged_marked]
  unfold LogOf
  rw [if_neg (by omega)]
  constructor
  · rintro ⟨⟨front, back, htext, -, hlogged⟩, hchunks⟩
    have hnote := (String.append_left_inj truncatedMarker).mp (Option.some.inj hlogged)
    exact .note back hlong hinside (hnote ▸ htext) hchunks
  · intro h
    cases h with
    | short hfits _ _ => omega
    | long front rest rest' hfront _ htext _ _ =>
      exact absurd (isCharBoundary_iff.mpr ⟨front, rest, htext, hfront⟩) hinside
    | note rest _ _ htext hchunks =>
      exact ⟨⟨binaryNote, rest, htext, by decide, rfl⟩, hchunks⟩

end

/-- The log of a streamed text is faithful, and a hit logs the same, exactly when its chunks are
cut so. -/
theorem logs_alike_iff (cacheShouldWrite : Bool) (clientOpen : ℕ → Bool)
    {items : List (Except String Bytes)} {text : String}
    (hbody : (upstreamChunks items).flatten = asBytes text) {cached : CachedResponse}
    (hcached : cached.chunks = upstreamChunks items) :
    let c := (captureLoop cacheShouldWrite clientOpen 0 items .start).1
    let logged := capturedBodyToString c.responseCapture c.responseTruncated
    LogOf text logged ∧ cachedBodyPreview cached = some logged ↔
      LogsAlike text (upstreamChunks items) := by
  intro c logged
  have hcaptured := captureLoop_front cacheShouldWrite clientOpen items
  rw [hbody] at hcaptured
  have hlogged : logged = asLogged (capturedText text) := capturedBodyToString_eq hcaptured
  rw [hlogged, cachedBodyPreview_iff, hcached]
  by_cases hfits : text.utf8ByteSize ≤ maxLogBodyBytes
  · exact alike_short hbody hfits
  · by_cases hboundary : IsCharBoundary text maxLogBodyBytes
    · obtain ⟨front, rest, htext, hfront⟩ := isCharBoundary_iff.mp hboundary
      exact alike_long hfront htext (by omega)
    · exact alike_note (by omega) hboundary

theorem logs_alike_two_chunks :
    let items : List (Except String Bytes) := [.ok (asBytes "größer "), .ok (asBytes "als klein")]
    let c := (captureLoop true (fun _ => true) 0 items .start).1
    let logged := capturedBodyToString c.responseCapture c.responseTruncated
    LogOf "größer als klein" logged ∧
      cachedBodyPreview ⟨200, [], [asBytes "größer ", asBytes "als klein"], 0, none⟩ =
        some logged := by
  refine (@logs_alike_iff true (fun _ => true) [.ok (asBytes "größer "), .ok (asBytes "als klein")]
    "größer als klein" rfl ⟨200, [], [asBytes "größer ", asBytes "als klein"], 0, none⟩ rfl).mpr
      (.short (by decide) ?_ fun hfull => absurd hfull (by decide))
  intro data hdata
  rcases List.mem_cons.mp hdata with rfl | hdata
  · rw [fromUtf8_asBytes]
    rfl
  · rw [List.mem_singleton.mp hdata, fromUtf8_asBytes]
    rfl

/-- An `é` in two chunks: the hit logs nothing. -/
theorem split_character_lost :
    let items : List (Except String Bytes) := [.ok [195], .ok [169]]
    let c := (captureLoop true (fun _ => true) 0 items .start).1
    let logged := capturedBodyToString c.responseCapture c.responseTruncated
    (upstreamChunks items).flatten = asBytes "é" ∧ logged = some "é" ∧
      cachedBodyPreview ⟨200, [], upstreamChunks items, 0, none⟩ = some none ∧
      ¬(LogOf "é" logged ∧
        cachedBodyPreview ⟨200, [], upstreamChunks items, 0, none⟩ = some logged) := by
  intro items c logged
  have hlogged : logged = some "é" := by decide
  have hpreview : cachedBodyPreview ⟨200, [], upstreamChunks items, 0, none⟩ = some none := by
    decide
  refine ⟨rfl, hlogged, hpreview, fun h => ?_⟩
  rw [hpreview, hlogged] at h
  cases h.2

end AiGateway.Api
