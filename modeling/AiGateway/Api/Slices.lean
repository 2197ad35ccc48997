import AiGateway.Api.RequestIds
import AiGateway.Library.CharBoundary

/-!
# The slices of the cache path (`gateway-api/src/routes/proxy.rs:183-193, 603-666`)

A hit cuts the cached text at 64 KiB for its record and the cache key at 48 bytes for its
header. Both cuts count bytes, and the text and the namespace in the key may be any UTF-8: a cut
inside a character is a panic.
-/

namespace AiGateway.Api
open AiGateway.Core AiGateway.Library

/-! ### Cutting off a front -/

theorem sliceTo_append_right (front back : List Char) (n : ℕ) :
    sliceTo (front ++ back) ((String.ofList front).utf8ByteSize + n) =
      (sliceTo back n).map (front ++ ·) := by
  induction front with
  | nil =>
    have hzero : (String.ofList []).utf8ByteSize + n = n := Nat.zero_add n
    rw [hzero]
    exact Option.map_id'.symm
  | cons c front ih =>
    have hpos := c.utf8Size_pos
    obtain ⟨m, hm⟩ : ∃ m, (String.ofList (c :: front)).utf8ByteSize + n = m + 1 :=
      ⟨(String.ofList (c :: front)).utf8ByteSize + n - 1, by
        rw [utf8ByteSize_ofList_cons]
        omega⟩
    have hrest : m + 1 - c.utf8Size = (String.ofList front).utf8ByteSize + n := by
      rw [utf8ByteSize_ofList_cons] at hm
      omega
    have hfits : c.utf8Size ≤ m + 1 := by
      rw [utf8ByteSize_ofList_cons] at hm
      omega
    rw [hm, List.cons_append, sliceTo, if_pos hfits, hrest, ih, Option.map_map]
    rfl

theorem sliceTo_append_left {front : List Char} {n : ℕ}
    (hn : n ≤ (String.ofList front).utf8ByteSize) (back : List Char) :
    sliceTo (front ++ back) n = sliceTo front n := by
  induction front generalizing n with
  | nil =>
    obtain rfl : n = 0 := Nat.le_zero.mp hn
    cases back <;> rfl
  | cons c front ih =>
    rw [utf8ByteSize_ofList_cons] at hn
    cases n with
    | zero => rfl
    | succ n =>
      rw [List.cons_append, sliceTo, sliceTo, ih (by omega)]

theorem sliceTo_append (front back : List Char) :
    sliceTo (front ++ back) (String.ofList front).utf8ByteSize = some front := by
  have hnothing := sliceTo_append_right front back 0
  rw [Nat.add_zero, sliceTo, Option.map_some, List.append_nil] at hnothing
  exact hnothing

theorem sliceTo_size (s : String) : sliceTo s.toList s.utf8ByteSize = some s.toList := by
  have hall := sliceTo_append s.toList []
  rw [List.append_nil, String.ofList_toList] at hall
  exact hall

theorem append_of_sliceTo {cs front : List Char} {n : ℕ} (h : sliceTo cs n = some front) :
    ∃ back, cs = front ++ back ∧ (String.ofList front).utf8ByteSize = n := by
  induction cs generalizing n front with
  | nil =>
    cases n with
    | zero =>
      cases h
      exact ⟨[], rfl, rfl⟩
    | succ n => cases h
  | cons c cs ih =>
    cases n with
    | zero =>
      cases h
      exact ⟨c :: cs, rfl, rfl⟩
    | succ n =>
      rw [sliceTo] at h
      split at h
      · obtain ⟨rest, hrest, hfront⟩ := Option.map_eq_some_iff.mp h
        obtain ⟨back, hcs, hsize⟩ := ih hrest
        refine ⟨back, ?_, ?_⟩
        · rw [← hfront, hcs, List.cons_append]
        · rw [← hfront, utf8ByteSize_ofList_cons]
          omega
      · cases h

theorem sliceTo_isSome (s : String) (n : ℕ) :
    (sliceTo s.toList n).isSome ↔ IsCharBoundary s n := by
  rw [Option.isSome_iff_exists, isCharBoundary_iff]
  constructor
  · intro h
    obtain ⟨front, hfront⟩ := h
    obtain ⟨back, hs, hsize⟩ := append_of_sliceTo hfront
    refine ⟨String.ofList front, String.ofList back, ?_, hsize⟩
    rw [← String.ofList_append, ← hs, String.ofList_toList]
  · intro h
    obtain ⟨front, back, hs, hsize⟩ := h
    have hcut := sliceTo_append front.toList back.toList
    rw [String.ofList_toList, hsize, ← String.toList_append, ← hs] at hcut
    exact ⟨front.toList, hcut⟩

/-! ### The preview -/

/-- One round of the loop over the chunks: how long the text is by then, what it appends, and
where it cuts this. -/
structure PreviewSlice where
  outLen : ℕ
  text : String
  cut : ℕ

/-- The subtraction does not underflow, and the cut is a boundary. -/
def PreviewSlice.Safe (slice : PreviewSlice) : Prop :=
  slice.outLen ≤ maxLogBodyBytes ∧ slice.cut ≤ slice.text.utf8ByteSize ∧
    IsCharBoundary slice.text slice.cut

/-- The slices that `previewLoop` takes, up to the one that panics. -/
def previewSlices : List Bytes → String → List PreviewSlice
  | [], _ => []
  | data :: chunks, out =>
    if maxLogBodyBytes ≤ out.utf8ByteSize then []
    else
      match fromUtf8 data with
      | some s =>
        let cut := min s.utf8ByteSize (maxLogBodyBytes - out.utf8ByteSize)
        ⟨out.utf8ByteSize, s, cut⟩ ::
          match sliceTo s.toList cut with
          | some front => previewSlices chunks (out ++ String.ofList front)
          | none => []
      | none => previewSlices chunks out

def bodyText : List Bytes → String
  | [] => ""
  | data :: chunks => (fromUtf8 data).getD "" ++ bodyText chunks

/-- A cut at the length `n` or before leaves whole characters. -/
def CutsClean (s : String) (n : ℕ) : Prop := s.utf8ByteSize ≤ n ∨ IsCharBoundary s n

theorem cutsClean_iff (s : String) (n : ℕ) :
    CutsClean s n ↔ IsCharBoundary s (min s.utf8ByteSize n) := by
  unfold CutsClean
  by_cases hfits : s.utf8ByteSize ≤ n
  · rw [Nat.min_eq_left hfits]
    constructor
    · intro _
      exact isCharBoundary_size s
    · intro _
      exact Or.inl hfits
  · rw [Nat.min_eq_right (by omega)]
    constructor
    · intro h
      exact h.resolve_left hfits
    · intro h
      exact Or.inr h

theorem cutsClean_zero (s : String) : CutsClean s 0 := Or.inr (isCharBoundary_zero s)

theorem cutsClean_append_right {s t : String} {n : ℕ} (hs : s.utf8ByteSize ≤ n) :
    CutsClean (s ++ t) n ↔ CutsClean t (n - s.utf8ByteSize) := by
  have hcut : n = s.utf8ByteSize + (n - s.utf8ByteSize) := by omega
  unfold CutsClean
  rw [String.utf8ByteSize_append]
  constructor
  · intro h
    rcases h with hfits | hcuts
    · exact Or.inl (by omega)
    · rw [hcut] at hcuts
      exact Or.inr (isCharBoundary_append_right.mp hcuts)
  · intro h
    rcases h with hfits | hcuts
    · exact Or.inl (by omega)
    · rw [hcut]
      exact Or.inr (isCharBoundary_append_right.mpr hcuts)

theorem cutsClean_append_left {s t : String} {n : ℕ} (hs : n < s.utf8ByteSize) :
    CutsClean (s ++ t) n ↔ IsCharBoundary s n := by
  unfold CutsClean
  rw [isCharBoundary_append_left (by omega), String.utf8ByteSize_append]
  constructor
  · intro h
    exact h.resolve_left (by omega)
  · intro h
    exact Or.inr h

/-- The loop is safe on every chunk if the text of all of them can be cut at the limit. -/
theorem previewSlices_safe_iff (chunks : List Bytes) {out : String}
    (hout : out.utf8ByteSize ≤ maxLogBodyBytes) :
    (∀ slice ∈ previewSlices chunks out, slice.Safe) ↔
      CutsClean (bodyText chunks) (maxLogBodyBytes - out.utf8ByteSize) := by
  induction chunks generalizing out with
  | nil =>
    constructor
    · intro _
      exact Or.inl (Nat.zero_le _)
    · intro _ slice hslice
      cases hslice
  | cons data chunks ih =>
    rw [previewSlices, bodyText]
    by_cases hfull : maxLogBodyBytes ≤ out.utf8ByteSize
    · have hzero : maxLogBodyBytes - out.utf8ByteSize = 0 := by omega
      rw [if_pos hfull, hzero]
      constructor
      · intro _
        exact cutsClean_zero _
      · intro _ slice hslice
        cases hslice
    · rw [if_neg hfull]
      cases hdata : fromUtf8 data with
      | none =>
        rw [Option.getD_none, String.empty_append]
        exact ih hout
      | some s =>
        simp only [Option.getD_some, List.forall_mem_cons]
        by_cases hfits : s.utf8ByteSize ≤ maxLogBodyBytes - out.utf8ByteSize
        · -- the whole chunk is appended
          have hsize : (out ++ s).utf8ByteSize ≤ maxLogBodyBytes := by
            rw [String.utf8ByteSize_append]
            omega
          have hleft : maxLogBodyBytes - (out ++ s).utf8ByteSize =
              maxLogBodyBytes - out.utf8ByteSize - s.utf8ByteSize := by
            rw [String.utf8ByteSize_append]
            omega
          rw [Nat.min_eq_left hfits, sliceTo_size]
          simp only [String.ofList_toList]
          rw [ih hsize, hleft, cutsClean_append_right hfits]
          constructor
          · intro h
            exact h.2
          · intro h
            exact ⟨⟨hout, le_refl _, isCharBoundary_size s⟩, h⟩
        · -- the chunk reaches the limit, and the loop ends behind it
          rw [Nat.min_eq_right (by omega), cutsClean_append_left (by omega)]
          constructor
          · intro h
            exact h.1.2.2
          · intro hcut
            refine ⟨⟨hout, hcut.le, hcut⟩, ?_⟩
            obtain ⟨front, hfront⟩ := Option.isSome_iff_exists.mp ((sliceTo_isSome s _).mpr hcut)
            obtain ⟨back, -, hsize⟩ := append_of_sliceTo hfront
            have hend : (out ++ String.ofList front).utf8ByteSize = maxLogBodyBytes := by
              rw [String.utf8ByteSize_append, hsize]
              omega
            rw [hfront]
            refine (ih (le_of_eq hend)).mpr ?_
            rw [hend, Nat.sub_self]
            exact cutsClean_zero _

/-! ### The preview in one cut -/

def truncatedMarker : String := "\n…[truncated]"

/-- What a preview ends with: the marker, if a chunk is left when the limit is reached. -/
def previewEnd (chunks : List Bytes) (outLen : ℕ) : String :=
  if chunks ≠ [] ∧ maxLogBodyBytes ≤ outLen + (bodyText chunks.dropLast).utf8ByteSize then
    truncatedMarker
  else ""

theorem previewEnd_full {outLen : ℕ} (h : maxLogBodyBytes ≤ outLen) (chunks : List Bytes) :
    previewEnd chunks outLen = if chunks ≠ [] then truncatedMarker else "" := by
  have hreached : (chunks ≠ [] ∧
      maxLogBodyBytes ≤ outLen + (bodyText chunks.dropLast).utf8ByteSize) ↔ chunks ≠ [] := by
    constructor
    · exact fun h' => h'.1
    · exact fun h' => ⟨h', by omega⟩
  rw [previewEnd, if_congr hreached rfl rfl]

theorem previewEnd_cons {data : Bytes} {outLen : ℕ} (h : outLen < maxLogBodyBytes)
    (chunks : List Bytes) : previewEnd (data :: chunks) outLen =
      previewEnd chunks (outLen + ((fromUtf8 data).getD "").utf8ByteSize) := by
  cases chunks with
  | nil =>
    have hlast : ¬maxLogBodyBytes ≤ outLen + (bodyText [data].dropLast).utf8ByteSize := by
      show ¬maxLogBodyBytes ≤ outLen + 0
      omega
    rw [previewEnd, previewEnd, if_neg fun h' => hlast h'.2, if_neg fun h' => h'.1 rfl]
  | cons next chunks =>
    rw [previewEnd, previewEnd, List.dropLast_cons_of_ne_nil (List.cons_ne_nil _ _), bodyText,
      String.utf8ByteSize_append, Nat.add_assoc]
    refine if_congr ⟨fun h' => ⟨List.cons_ne_nil _ _, h'.2⟩, fun h' => ⟨List.cons_ne_nil _ _, h'.2⟩⟩
      rfl rfl

theorem previewLoop_eq (chunks : List Bytes) {out : String}
    (hout : out.utf8ByteSize ≤ maxLogBodyBytes) :
    previewLoop chunks out =
      (sliceTo (bodyText chunks).toList
        (min (bodyText chunks).utf8ByteSize (maxLogBodyBytes - out.utf8ByteSize))).map
          fun front => out ++ String.ofList front ++ previewEnd chunks out.utf8ByteSize := by
  induction chunks generalizing out with
  | nil =>
    have hend : previewEnd [] out.utf8ByteSize = "" := if_neg fun h => h.1 rfl
    rw [previewLoop, bodyText, String.utf8ByteSize_empty, Nat.zero_min, sliceTo, Option.map_some,
      hend, String.append_empty, String.ofList_nil, String.append_empty]
  | cons data chunks ih =>
    rw [previewLoop]
    by_cases hfull : maxLogBodyBytes ≤ out.utf8ByteSize
    · have hnone : maxLogBodyBytes - out.utf8ByteSize = 0 := by omega
      rw [if_pos hfull, hnone, Nat.min_zero, sliceTo, Option.map_some, previewEnd_full hfull,
        if_pos (List.cons_ne_nil _ _), String.ofList_nil, String.append_empty]
      rfl
    · rw [if_neg hfull, previewEnd_cons (by omega), bodyText]
      cases hdata : fromUtf8 data with
      | none =>
        rw [Option.getD_none, String.empty_append, String.utf8ByteSize_empty, Nat.add_zero]
        exact ih hout
      | some s =>
        simp only [Option.getD_some]
        rw [String.utf8ByteSize_append, String.toList_append]
        by_cases hfits : s.utf8ByteSize ≤ maxLogBodyBytes - out.utf8ByteSize
        · -- the whole chunk is appended
          have hsize : (out ++ s).utf8ByteSize = out.utf8ByteSize + s.utf8ByteSize :=
            String.utf8ByteSize_append
          have hcut : min (s.utf8ByteSize + (bodyText chunks).utf8ByteSize)
              (maxLogBodyBytes - out.utf8ByteSize) = (String.ofList s.toList).utf8ByteSize +
                min (bodyText chunks).utf8ByteSize
                  (maxLogBodyBytes - (out ++ s).utf8ByteSize) := by
            rw [String.ofList_toList, hsize]
            omega
          rw [Nat.min_eq_left hfits, sliceTo_size, Option.bind_some, String.ofList_toList,
            ih (by omega), hcut, sliceTo_append_right, Option.map_map, hsize]
          refine congrArg (fun f => Option.map f _) (funext fun front => ?_)
          show _ = out ++ String.ofList (s.toList ++ front) ++ _
          rw [String.ofList_append, String.ofList_toList, ← String.append_assoc]
        · -- the chunk reaches the limit, and the loop ends behind it
          have hcut : min (s.utf8ByteSize + (bodyText chunks).utf8ByteSize)
              (maxLogBodyBytes - out.utf8ByteSize) = maxLogBodyBytes - out.utf8ByteSize := by
            omega
          rw [Nat.min_eq_right (by omega), hcut, sliceTo_append_left (by
            rw [String.ofList_toList]
            omega)]
          cases hfront : sliceTo s.toList (maxLogBodyBytes - out.utf8ByteSize) with
          | none => rfl
          | some front =>
            obtain ⟨back, -, hsize⟩ := append_of_sliceTo hfront
            have hend : (out ++ String.ofList front).utf8ByteSize = maxLogBodyBytes := by
              rw [String.utf8ByteSize_append, hsize]
              omega
            rw [Option.bind_some, ih (le_of_eq hend), hend, Nat.sub_self, Nat.min_zero, sliceTo,
              Option.map_some, Option.map_some, previewEnd_full (le_refl _),
              previewEnd_full (by omega), String.ofList_nil, String.append_empty]

/-- The loop returns when all of its slices are safe. -/
theorem previewLoop_isSome (chunks : List Bytes) {out : String}
    (hout : out.utf8ByteSize ≤ maxLogBodyBytes) :
    (previewLoop chunks out).isSome ↔ ∀ slice ∈ previewSlices chunks out, slice.Safe := by
  rw [previewLoop_eq chunks hout, Option.isSome_map, sliceTo_isSome, ← cutsClean_iff,
    previewSlices_safe_iff chunks hout]

/-! ### The cache key -/

def HexDigits (s : String) : Prop := ∀ c ∈ s.toList, c ∈ "0123456789abcdef".toList

theorem HexDigits.ascii {s : String} (h : HexDigits s) : ∀ c ∈ s.toList, c.utf8Size = 1 := by
  have hdigits : ("0123456789abcdef".toList.all fun c => decide (c.utf8Size = 1)) = true := by
    decide
  intro c hc
  exact of_decide_eq_true (List.all_eq_true.mp hdigits c (h c hc))

/-- Behind `resp:` stand 43 bytes of a long namespace; behind a short one stand digits. -/
theorem cutsClean_key (ns : String) {digest : String} (hhex : HexDigits digest) :
    CutsClean ("resp:" ++ ns ++ ":" ++ digest) 48 ↔ CutsClean ns 43 := by
  have hprefix : "resp:".utf8ByteSize = 5 := by decide
  have hascii : ∀ c ∈ (":" ++ digest).toList, c.utf8Size = 1 := by
    intro c hc
    rw [String.toList_append, List.mem_append] at hc
    rcases hc with hcolon | hdigit
    · rw [List.mem_singleton.mp hcolon]
      decide
    · exact hhex.ascii c hdigit
  have hparts : "resp:" ++ ns ++ ":" ++ digest = "resp:" ++ (ns ++ (":" ++ digest)) := by
    rw [String.append_assoc, String.append_assoc]
  rw [hparts, cutsClean_append_right (by omega), hprefix]
  by_cases hshort : ns.utf8ByteSize ≤ 43
  · rw [cutsClean_append_right hshort, cutsClean_iff]
    constructor
    · intro _
      exact Or.inl hshort
    · intro _
      exact isCharBoundary_of_ascii hascii (Nat.min_le_left _ _)
  · rw [cutsClean_append_left (by omega)]
    constructor
    · intro h
      exact Or.inr h
    · intro h
      exact h.resolve_left hshort

/-! ### Both -/

def CacheSlicesSafe (cached : CachedResponse) (key : String) : Prop :=
  (∀ slice ∈ previewSlices cached.chunks "", slice.Safe) ∧
    min key.utf8ByteSize 48 ≤ key.utf8ByteSize ∧ IsCharBoundary key (min key.utf8ByteSize 48)

theorem cacheSlicesSafe_iff_returns (cached : CachedResponse) (key : String) :
    CacheSlicesSafe cached key ↔ (cachedBodyPreview cached).isSome ∧
      ∀ headers status ageS, (insertCacheHeaders headers status (some key) ageS).isSome := by
  have hkey : ∀ headers status ageS, (insertCacheHeaders headers status (some key) ageS).isSome ↔
      IsCharBoundary key (min key.utf8ByteSize 48) := by
    intro headers status ageS
    rw [insertCacheHeaders_isSome, ← sliceTo_isSome]
    constructor
    · intro h
      exact h key rfl
    · intro h k hk
      cases hk
      exact h
  unfold CacheSlicesSafe cachedBodyPreview
  rw [Option.isSome_map, previewLoop_isSome _ (Nat.zero_le _)]
  constructor
  · intro h
    exact ⟨h.1, fun headers status ageS => (hkey headers status ageS).mpr h.2.2⟩
  · intro h
    exact ⟨h.1, Nat.min_le_left _ _, (hkey [] .hit none).mp (h.2 [] .hit none)⟩

/-- Nothing panics exactly when the cached text is no longer than 64 KiB or has a boundary there,
and the namespace is no longer than 43 bytes or has a boundary there. -/
theorem cache_slices_safe_iff {blake3Hex : Bytes → String} (hhex : ∀ bytes, HexDigits (blake3Hex bytes))
    {numText : Number → String} {config : CacheConfig} {req : ProxyRequest} {key : String}
    (hkey : cacheKey blake3Hex numText config req = some key) (cached : CachedResponse) :
    CacheSlicesSafe cached key ↔
      CutsClean (bodyText cached.chunks) maxLogBodyBytes ∧ CutsClean req.ns 43 := by
  obtain ⟨value, -, hkey⟩ := cacheKey_eq_some hkey
  unfold CacheSlicesSafe
  rw [previewSlices_safe_iff _ (Nat.zero_le _), String.utf8ByteSize_empty, Nat.sub_zero,
    ← cutsClean_iff, hkey, cutsClean_key _ (hhex _)]
  constructor
  · intro h
    exact ⟨h.1, h.2.2⟩
  · intro h
    exact ⟨h.1, Nat.min_le_left _ _, h.2⟩

/-- BLAKE3's digest of what the sample request hashes. -/
def sampleDigest (_ : Bytes) : String :=
  "892fb1f94ba64025c9c5894290cc6645387379a3b0c732091755dac55c2712f4"

def textAnswer (text : String) : CachedResponse := ⟨200, [], [asBytes text], 0, some "openai"⟩

theorem bodyText_textAnswer (text : String) : bodyText (textAnswer text).chunks = text := by
  show (fromUtf8 (asBytes text)).getD "" ++ "" = text
  rw [fromUtf8_asBytes, Option.getD_some, String.append_empty]

/-- Both are cut, each in front of an `é`. -/
theorem cache_slices_safe_cut :
    ∃ key, cacheKey sampleDigest sampleNumber cachedRoute
        { sampleRequest "POST" "/chat/completions" [] inputModel with
          ns := "translations-for-the-european-institutions-é" } = some key ∧
      CacheSlicesSafe (textAnswer (String.ofList (List.replicate 65536 'a') ++ "é")) key := by
  have hhex : ∀ bytes, HexDigits (sampleDigest bytes) := by
    intro bytes c hc
    have hdigits : ((sampleDigest bytes).toList.all fun c =>
        decide (c ∈ "0123456789abcdef".toList)) = true := by
      show ((sampleDigest []).toList.all fun c => decide (c ∈ "0123456789abcdef".toList)) = true
      decide
    exact of_decide_eq_true (List.all_eq_true.mp hdigits c hc)
  have hsize : (String.ofList (List.replicate 65536 'a')).utf8ByteSize = 65536 := by
    rw [utf8ByteSize_replicate]
    rfl
  have hsome : (cacheKey sampleDigest sampleNumber cachedRoute
      { sampleRequest "POST" "/chat/completions" [] inputModel with
        ns := "translations-for-the-european-institutions-é" }).isSome = true := rfl
  obtain ⟨key, hkey⟩ := Option.isSome_iff_exists.mp hsome
  refine ⟨key, hkey, (cache_slices_safe_iff hhex hkey _).mpr ⟨?_, ?_⟩⟩
  · rw [bodyText_textAnswer, cutsClean_append_right (by rw [hsize]; decide), hsize, cutsClean_iff,
      ← sliceTo_isSome]
    decide
  · rw [cutsClean_iff, ← sliceTo_isSome]
    decide

/-- An answer with an `é` across the limit, and a namespace with one across the 48th byte of
the key. -/
theorem cut_inside_character :
    (∃ key, cacheKey sampleDigest sampleNumber cachedRoute
        (sampleRequest "POST" "/chat/completions" [] inputModel) = some key ∧
      ¬ CacheSlicesSafe (textAnswer (String.ofList (List.replicate 65535 'a') ++ "é")) key) ∧
    ∃ key, cacheKey sampleDigest sampleNumber cachedRoute
        { sampleRequest "POST" "/chat/completions" [] inputModel with
          ns := "translations-for-the-european-institution-é" } = some key ∧
      ¬ CacheSlicesSafe (textAnswer "") key := by
  constructor
  · refine ⟨_, rfl, ?_⟩
    intro h
    have hsize : (String.ofList (List.replicate 65535 'a')).utf8ByteSize = 65535 := by
      rw [utf8ByteSize_replicate]
      rfl
    have hcut := (previewSlices_safe_iff _ (Nat.zero_le _)).mp h.1
    rw [bodyText_textAnswer, String.utf8ByteSize_empty, Nat.sub_zero,
      cutsClean_append_right (by rw [hsize]; decide), hsize] at hcut
    rw [cutsClean_iff, ← sliceTo_isSome] at hcut
    exact absurd hcut (by decide)
  · refine ⟨_, rfl, ?_⟩
    intro h
    have hcut := h.2.2
    rw [← sliceTo_isSome] at hcut
    exact absurd hcut (by decide)

end AiGateway.Api
