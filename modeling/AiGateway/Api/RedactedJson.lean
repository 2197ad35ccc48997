import AiGateway.Api.RequestLog
import AiGateway.Library.Base64

/-!
# The logged request body (`gateway-api/src/routes/proxy.rs:695-820`)

The request is logged as compact JSON with its base64 payloads replaced by a summary. A string is
a payload by the field that it stands in or by being a data URL; `force_base64` is set for the
value of a field and not for what is inside that value.
-/

namespace AiGateway.Api
open AiGateway.Core AiGateway.Library

def eqIgnoreAsciiCase (s t : String) : Bool := toAsciiLowercase s = toAsciiLowercase t

def isBase64FieldName (name : String) : Bool :=
  eqIgnoreAsciiCase name "base64" || eqIgnoreAsciiCase name "base64_data" ||
    eqIgnoreAsciiCase name "b64_json" ||
    "_base64".toList.isSuffixOf (toAsciiLowercase name).toList

/-- `split_once(',')`. -/
def splitOnceComma : List Char → Option (List Char × List Char)
  | [] => none
  | c :: cs =>
    if c = ',' then some ([], cs)
    else (splitOnceComma cs).map fun parts => (c :: parts.1, parts.2)

/-- The media type and the payload of a base64 data URL. -/
def dataUrlParts (value : String) : Option (String × String) :=
  if (value.toList.take 5).map Char.toLower ≠ "data:".toList then none
  else
    (splitOnceComma (value.toList.drop 5)).bind fun parts =>
      let options := (parts.1.splitOn ';').map String.ofList
      if options.any fun part => eqIgnoreAsciiCase part "base64" then
        some ((options.head?.filter fun mediaType => mediaType ≠ "").getD "text/plain",
          String.ofList parts.2)
      else none

def isAsciiWhitespace (b : UInt8) : Bool := b == 9 || b == 10 || b == 12 || b == 13 || b == 32

def maxUsize : ℕ := 18446744073709551615

/-- What `decoded_base64_len` counts: the bytes that are no white space, and the `=` among them. -/
def base64Counts (bytes : Bytes) : ℕ × ℕ :=
  bytes.foldl (fun counts byte =>
    if isAsciiWhitespace byte then counts
    else
      (min (counts.1 + 1) maxUsize,
        if byte = 61 then min (counts.2 + 1) maxUsize else counts.2)) (0, 0)

def decodedBase64Len (value : String) : ℕ :=
  let counts := base64Counts (asBytes value)
  min (counts.1 * 6) maxUsize / 8 - min counts.2 2

def base64Summary (value : String) (force : Bool) (mediaType : Option String) : Option String :=
  let parts := if force then some (mediaType.getD "application/octet-stream", value)
    else dataUrlParts value
  parts.map fun parts =>
    "[base64 " ++ parts.1 ++ ", " ++ toString (decodedBase64Len parts.2) ++ " bytes]"

def declaredMediaType (fields : List (String × Value)) : Option String :=
  ((fields.lookup "media_type").or (fields.lookup "mime_type")).bind Value.asStr

def declaresBase64 (fields : List (String × Value)) : Bool :=
  ((fields.lookup "type").bind Value.asStr).any (fun kind => eqIgnoreAsciiCase kind "base64") ||
    ((declaredMediaType fields).isSome && (fields.lookup "data").isSome)

/-- `force_base64` for a field of an object. -/
def forcesBase64 (declares : Bool) (key : String) : Bool :=
  isBase64FieldName key || (declares && eqIgnoreAsciiCase key "data")

mutual

/-- The value that `RedactedJson` serializes. -/
def redact (force : Bool) (mediaType : Option String) : Value → Value
  | .null => .null
  | .bool b => .bool b
  | .number n => .number n
  | .string s => .string ((base64Summary s force mediaType).getD s)
  | .array items => .array (redactItems items)
  | .object fields => .object (redactFields (declaresBase64 fields) (declaredMediaType fields) fields)

def redactItems : List Value → List Value
  | [] => []
  | v :: vs => redact false none v :: redactItems vs

def redactFields (declares : Bool) (mediaType : Option String) :
    List (String × Value) → List (String × Value)
  | [] => []
  | (key, v) :: fields =>
    (key, redact (forcesBase64 declares key)
      (if forcesBase64 declares key then mediaType else none) v) ::
        redactFields declares mediaType fields

end

/-! ### The size in a summary -/

def countedBytes (bytes : Bytes) : Bytes := bytes.filter fun b => !isAsciiWhitespace b

theorem base64Counts_eq (bytes : Bytes) :
    base64Counts bytes =
      (min (countedBytes bytes).length maxUsize, min ((countedBytes bytes).count 61) maxUsize) := by
  have hfold : ∀ n m : ℕ, n ≤ maxUsize → m ≤ maxUsize →
      bytes.foldl (fun (counts : ℕ × ℕ) byte =>
        if isAsciiWhitespace byte then counts
        else
          (min (counts.1 + 1) maxUsize,
            if byte = 61 then min (counts.2 + 1) maxUsize else counts.2)) (n, m) =
        (min (n + (countedBytes bytes).length) maxUsize,
          min (m + (countedBytes bytes).count 61) maxUsize) := by
    induction bytes with
    | nil =>
      intro n m hn hm
      rw [List.foldl_nil]
      simp only [countedBytes, List.filter_nil, List.length_nil, List.count_nil, Nat.add_zero]
      rw [Nat.min_eq_left hn, Nat.min_eq_left hm]
    | cons b bytes ih =>
      intro n m hn hm
      rw [List.foldl_cons]
      cases hspace : isAsciiWhitespace b with
      | true =>
        have hskip : countedBytes (b :: bytes) = countedBytes bytes :=
          List.filter_cons_of_neg (by simp [hspace])
        rw [if_pos rfl, ih n m hn hm, hskip]
      | false =>
        have hcounted : countedBytes (b :: bytes) = b :: countedBytes bytes :=
          List.filter_cons_of_pos (by simp [hspace])
        rw [if_neg (by decide), hcounted, List.length_cons]
        by_cases hpad : b = 61
        · rw [if_pos hpad, ih _ _ (Nat.min_le_right _ _) (Nat.min_le_right _ _), hpad,
            List.count_cons_self]
          exact congrArg₂ Prod.mk (by omega) (by omega)
        · rw [if_neg hpad, ih _ _ (Nat.min_le_right _ _) hm, List.count_cons_of_ne hpad]
          exact congrArg₂ Prod.mk (by omega) (by omega)
  have hstart := hfold 0 0 (Nat.zero_le _) (Nat.zero_le _)
  rw [Nat.zero_add, Nat.zero_add] at hstart
  exact hstart

theorem decodedBase64Len_eq (value : String) :
    decodedBase64Len value =
      min ((countedBytes (asBytes value)).length * 6) maxUsize / 8 -
        min ((countedBytes (asBytes value)).count 61) 2 := by
  unfold decodedBase64Len
  rw [base64Counts_eq]
  simp only [maxUsize]
  omega

/-- The length of the encoded bytes, from the text alone. -/
theorem decodedBase64Len_encode (a : Base64.Alphabet) (padded : Bool) {bytes : Bytes}
    {value : String}
    (htext : countedBytes (asBytes value) = Base64.encode a padded bytes)
    (hsize : (Base64.encode a padded bytes).length * 6 ≤ maxUsize) :
    decodedBase64Len value = bytes.length := by
  obtain ⟨hlength, hpad⟩ := Base64.encode_size a padded bytes
  rw [decodedBase64Len_eq, htext, Nat.min_eq_left hsize, Nat.min_eq_left hpad, hlength,
    Nat.add_sub_cancel]

/-- `abcd`, on two lines. -/
theorem decodedBase64Len_encode_lines : decodedBase64Len "YWJj\nZA==\r\n" = 4 :=
  @decodedBase64Len_encode .standard true [97, 98, 99, 100] "YWJj\nZA==\r\n" (by decide) (by decide)

end AiGateway.Api
