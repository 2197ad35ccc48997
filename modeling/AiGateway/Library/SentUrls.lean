import Mathlib.Data.List.DropRight
import AiGateway.Library.PercentCoding

/-!
# How an HTTP client writes a URL

The text of an `http` or `https` URL is parsed before anything is sent (the URL standard): spaces
around it and line ends in it are dropped, the fragment is cut off, the segments of the path are
resolved, and what a path or a query cannot hold is escaped. How a host is written depends on more
than the text of the URL, so it is a parameter.

The bytes that a text stands for do not grow by this, so a text that stands for no fewer of them
afterwards was only spelled out.
-/

namespace AiGateway.Library

def isSpace (b : UInt8) : Bool := b ≤ 32

def isIgnored (b : UInt8) : Bool := b = 9 || b = 10 || b = 13

def cleanText (text : List UInt8) : List UInt8 :=
  ((text.dropWhile isSpace).rdropWhile isSpace).filter fun b => !isIgnored b

def isSlash (b : UInt8) : Bool := b = 47 || b = 92

def toSlash (b : UInt8) : UInt8 := if b = 92 then 47 else b

/-- How many dots the segment is made of, when it is nothing else; `%2e` is one too. -/
def dots : List UInt8 → Option ℕ
  | [] => some 0
  | 46 :: rest => (dots rest).map (· + 1)
  | 37 :: 50 :: e :: rest => if e = 101 ∨ e = 69 then (dots rest).map (· + 1) else none
  | _ => none

def isDotted (seg : List UInt8) : Bool := dots seg = some 1 || dots seg = some 2

/-- The segments that are left of `segs` behind the ones of `path`. -/
def resolve (path : List (List UInt8)) : List (List UInt8) → List (List UInt8)
  | [] => path
  | seg :: segs =>
    let up := if dots seg = some 2 then path.dropLast else path
    if isDotted seg then resolve (if segs = [] then up ++ [[]] else up) segs
    else resolve (path ++ [seg]) segs

def joinPath (segs : List (List UInt8)) : List UInt8 := segs.flatMap (47 :: ·)

/-- The end of the host and port. -/
def endsHost (b : UInt8) : Bool := isSlash b || b = 63 || b = 35

/-- Nothing of the host ends it, is dropped or is an escape. -/
def HostText (name : List UInt8) : Prop :=
  name ≠ [] ∧ ∀ b ∈ name, 32 < b ∧ b ≠ 37 ∧ endsHost b = false

structure UrlWriter where
  pathSet : EscapeSet
  querySet : EscapeSet
  -- the host and the port as they are sent, of an `https` URL or of an `http` URL
  host : Bool → List UInt8 → Option (List UInt8)
  -- no longer URL is sent
  limit : ℕ
  host_written : ∀ {secure text name}, host secure text = some name → HostText name

def schemeText (secure : Bool) : List UInt8 :=
  if secure then [104, 116, 116, 112, 115, 58] else [104, 116, 116, 112, 58]

def lowerByte (b : UInt8) : UInt8 := if 65 ≤ b ∧ b ≤ 90 then b + 32 else b

def readScheme (text : List UInt8) : Option (Bool × List UInt8) :=
  match text.dropWhile (· ≠ 58) with
  | [] => none
  | colon :: rest =>
    let name := (text.takeWhile (· ≠ 58)).map lowerByte ++ [colon]
    if name = schemeText true then some (true, rest)
    else if name = schemeText false then some (false, rest)
    else none

namespace UrlWriter
variable (writer : UrlWriter)

def segments (path : List UInt8) : List (List UInt8) :=
  ((path.drop 1).splitOnP isSlash).map writer.pathSet.encode

def writePath (path : List UInt8) : List UInt8 := joinPath (resolve [] (writer.segments path))

def writeQuery : List UInt8 → List UInt8
  | [] => []
  | mark :: query => mark :: writer.querySet.encode query

/-- What is sent of the text behind the host. -/
def writeTarget (text : List UInt8) : List UInt8 :=
  let text := text.takeWhile (· ≠ 35)
  writer.writePath (text.takeWhile (· ≠ 63)) ++ writer.writeQuery (text.dropWhile (· ≠ 63))

/-- The URL that is sent for a text, if any is. -/
def sends (text : List UInt8) : Option (List UInt8) :=
  (readScheme (cleanText text)).bind fun scheme =>
    let rest := scheme.2.dropWhile isSlash
    (writer.host scheme.1 (rest.takeWhile fun b => !endsHost b)).bind fun name =>
      let url := schemeText scheme.1 ++ [47, 47] ++ name ++
        writer.writeTarget (rest.dropWhile fun b => !endsHost b)
      if url.length ≤ writer.limit then some url else none

/-- Nothing of the text behind a host is dropped. -/
structure Kept (text : List UInt8) : Prop where
  closed : text.rdropWhile isSpace = text
  visible : ∀ b ∈ text, isIgnored b = false ∧ b ≠ 35
  undotted : ∀ seg ∈ writer.segments (text.takeWhile (· ≠ 63)), isDotted seg = false

/-- The text behind a host with its escapes. -/
def spelled (text : List UInt8) : List UInt8 :=
  writer.pathSet.encode ((text.takeWhile (· ≠ 63)).map toSlash) ++
    writer.writeQuery (text.dropWhile (· ≠ 63))

end UrlWriter

/-! ### Spaces and line ends -/

theorem isSpace_code {b : UInt8} (h : isSpace b = true) : isCode b = false := by
  have hall : ∀ n : Fin 256, isSpace (UInt8.ofNat n.val) = true →
      isCode (UInt8.ofNat n.val) = false := by decide +kernel
  have hb := hall ⟨b.toNat, b.toNat_lt⟩
  rw [UInt8.ofNat_toNat] at hb
  exact hb h

theorem isIgnored_space {b : UInt8} (h : isIgnored b = true) : isSpace b = true := by
  simp only [isIgnored, Bool.or_eq_true, decide_eq_true_eq] at h
  rcases h with (rfl | rfl) | rfl <;> rfl

theorem isIgnored_code {b : UInt8} (h : isCode b = true) : (!isIgnored b) = true := by
  cases hb : isIgnored b with
  | false => rfl
  | true =>
    rw [isSpace_code (isIgnored_space hb)] at h
    cases h

theorem rdropWhile_append_cons {p : UInt8 → Bool} {b : UInt8} (hb : p b = false)
    (front back : List UInt8) :
    (front ++ b :: back).rdropWhile p = front ++ b :: back.rdropWhile p := by
  induction back using List.reverseRecOn with
  | nil =>
    rw [List.rdropWhile_concat_neg p front b (by rw [hb]; exact Bool.false_ne_true),
      List.rdropWhile_nil]
  | append_singleton back c ih =>
    cases hc : p c with
    | true =>
      rw [← List.cons_append, ← List.append_assoc, List.rdropWhile_concat_pos p _ c hc, ih,
        List.rdropWhile_concat_pos p _ c hc]
    | false =>
      have hneg : ¬p c = true := by
        rw [hc]
        exact Bool.false_ne_true
      rw [← List.cons_append, ← List.append_assoc, List.rdropWhile_concat_neg p _ c hneg,
        List.rdropWhile_concat_neg p _ c hneg, List.append_assoc, List.cons_append]

theorem isSpace_large {b : UInt8} (h : 32 < b) : isSpace b = false := by
  rw [isSpace, decide_eq_false_iff_not]
  exact UInt8.not_le.mpr h

theorem isIgnored_large {b : UInt8} (h : 32 < b) : isIgnored b = false := by
  cases hb : isIgnored b with
  | false => rfl
  | true =>
    have hspace := isIgnored_space hb
    rw [isSpace_large h] at hspace
    cases hspace

/-- The clean-up does not touch a host, nor what stands in front of it. -/
theorem cleanText_append {front : List UInt8} (hfront : ∀ b ∈ front, 32 < b) (rest : List UInt8) :
    cleanText (front ++ 47 :: rest) =
      front ++ 47 :: (rest.rdropWhile isSpace).filter fun b => !isIgnored b := by
  have hstart : (front ++ 47 :: rest).dropWhile isSpace = front ++ 47 :: rest := by
    match front, hfront with
    | [], _ => exact List.dropWhile_cons_of_neg (by decide)
    | b :: bs, hfront =>
      refine List.dropWhile_cons_of_neg ?_
      rw [isSpace_large (hfront b (List.mem_cons_self ..))]
      exact Bool.false_ne_true
  have hkept : (front.filter fun b => !isIgnored b) = front := by
    refine List.filter_eq_self.mpr fun b hb => ?_
    rw [isIgnored_large (hfront b hb)]
    rfl
  unfold cleanText
  rw [hstart, rdropWhile_append_cons rfl, List.filter_append, hkept]
  rfl

theorem rdropWhile_slash (rest : List UInt8) :
    (47 :: rest).rdropWhile isSpace = 47 :: rest.rdropWhile isSpace :=
  rdropWhile_append_cons rfl [] rest

theorem cleanText_slash (rest : List UInt8) :
    cleanText (47 :: rest) = 47 :: (rest.rdropWhile isSpace).filter fun b => !isIgnored b :=
  cleanText_append (List.forall_mem_nil _) rest

/-- A text behind a host is shorter if the clean-up touches it. -/
theorem cleanText_cases (rest : List UInt8) :
    (rest.rdropWhile isSpace = rest ∧ (∀ b ∈ rest, isIgnored b = false) ∧
      cleanText (47 :: rest) = 47 :: rest) ∨
    decodedLength (cleanText (47 :: rest)) < decodedLength (47 :: rest) := by
  have hends : rest.rdropWhile isSpace ++ rest.rtakeWhile isSpace = rest :=
    List.rdropWhile_append_rtakeWhile
  have hfilter := decodedLength_filter (fun b => @isIgnored_code b) (rest.rdropWhile isSpace)
  rw [cleanText_slash, decodedLength_cons rfl, decodedLength_cons rfl]
  cases hspaces : rest.rtakeWhile isSpace with
  | nil =>
    rw [hspaces, List.append_nil] at hends
    rw [hends] at hfilter ⊢
    rcases hfilter with hsame | hless
    · left
      refine ⟨rfl, fun b hb => ?_, by rw [hsame]⟩
      have hvisible := List.filter_eq_self.mp hsame b hb
      rwa [Bool.not_eq_true'] at hvisible
    · exact Or.inr (by omega)
  | cons c spaces =>
    right
    have hspace : isSpace c = true := by
      refine List.mem_rtakeWhile_imp (l := rest) ?_
      rw [hspaces]
      exact List.mem_cons_self ..
    have hlength := congrArg decodedLength hends
    rw [hspaces, decodedLength_append_cons _ (isSpace_code hspace)] at hlength
    rcases hfilter with hsame | hless
    · rw [hsame]
      omega
    · omega

/-! ### Dots -/

def pathLength : List (List UInt8) → ℕ
  | [] => 0
  | seg :: segs => decodedLength seg + 1 + pathLength segs

theorem decodedLength_joinPath (segs : List (List UInt8)) :
    decodedLength (joinPath segs) = pathLength segs := by
  induction segs with
  | nil => rfl
  | cons seg segs ih =>
    have hhead : ∀ b ∈ (joinPath segs).head?, isCode b = false := by
      intro b hb
      match segs with
      | [] => cases hb
      | s :: segs =>
        cases hb
        rfl
    have hjoin : joinPath (seg :: segs) = 47 :: (seg ++ joinPath segs) := rfl
    rw [hjoin, decodedLength_cons rfl, decodedLength_append hhead, ih]
    simp only [pathLength]
    omega

theorem pathLength_append (segs segs' : List (List UInt8)) :
    pathLength (segs ++ segs') = pathLength segs + pathLength segs' := by
  induction segs with
  | nil => exact (Nat.zero_add _).symm
  | cons seg segs ih =>
    simp only [List.cons_append, pathLength]
    omega

theorem pathLength_dropLast (segs : List (List UInt8)) :
    pathLength segs.dropLast ≤ pathLength segs := by
  induction segs using List.reverseRecOn with
  | nil => exact Nat.le_refl _
  | append_singleton segs seg ih =>
    rw [List.dropLast_concat, pathLength_append]
    exact Nat.le_add_right _ _

theorem resolve_undotted {segs : List (List UInt8)} (h : ∀ seg ∈ segs, isDotted seg = false)
    (path : List (List UInt8)) : resolve path segs = path ++ segs := by
  induction segs generalizing path with
  | nil => exact (List.append_nil _).symm
  | cons seg segs ih =>
    obtain ⟨hseg, hsegs⟩ := List.forall_mem_cons.mp h
    rw [resolve, hseg, if_neg Bool.false_ne_true, ih hsegs, List.append_assoc]
    rfl

/-- Segments of dots leave fewer bytes. -/
theorem resolve_cases (segs path : List (List UInt8)) :
    (∀ seg ∈ segs, isDotted seg = false) ∨
      pathLength (resolve path segs) < pathLength path + pathLength segs := by
  induction segs generalizing path with
  | nil => exact Or.inl (List.forall_mem_nil _)
  | cons seg segs ih =>
    have hlength : pathLength (seg :: segs) = decodedLength seg + 1 + pathLength segs := rfl
    rw [hlength, resolve]
    cases hdotted : isDotted seg with
    | false =>
      have hone : pathLength [seg] = decodedLength seg + 1 := rfl
      have hpath := pathLength_append path [seg]
      rw [if_neg Bool.false_ne_true]
      rcases ih (path ++ [seg]) with hnone | hless
      · exact Or.inl (List.forall_mem_cons.mpr ⟨hdotted, hnone⟩)
      · exact Or.inr (by omega)
    | true =>
      right
      have hpos : decodedLength seg ≠ 0 := by
        intro hzero
        rw [decodedLength_eq_zero_iff.mp hzero] at hdotted
        cases hdotted
      have hup : pathLength (if dots seg = some 2 then path.dropLast else path) ≤
          pathLength path := by
        split
        · exact pathLength_dropLast path
        · exact Nat.le_refl _
      rw [if_pos rfl]
      generalize (if dots seg = some 2 then path.dropLast else path) = up at hup
      have hopen : pathLength (if segs = [] then up ++ [[]] else up) ≤ pathLength up + 1 := by
        split
        · rw [pathLength_append]
          exact Nat.le_refl _
        · exact Nat.le_succ _
      rcases ih (if segs = [] then up ++ [[]] else up) with hnone | hless
      · rw [resolve_undotted hnone, pathLength_append]
        omega
      · omega

/-! ### Segments -/

theorem joinPath_splitOnP (path : List UInt8) :
    joinPath (path.splitOnP isSlash) = 47 :: path.map toSlash := by
  induction path with
  | nil => rfl
  | cons b path ih =>
    rw [List.splitOnP_cons_eq_if_modifyHead, List.map_cons]
    cases hslash : isSlash b with
    | true =>
      have hb : toSlash b = 47 := by
        simp only [isSlash, Bool.or_eq_true, decide_eq_true_eq] at hslash
        rcases hslash with rfl | rfl <;> rfl
      rw [if_pos rfl, hb, ← ih]
      rfl
    | false =>
      have hb : toSlash b = b := by
        simp only [isSlash, Bool.or_eq_false_iff, decide_eq_false_iff_not] at hslash
        exact if_neg hslash.2
      obtain ⟨seg, segs, hsegs⟩ :=
        List.exists_cons_of_ne_nil (List.splitOnP_ne_nil isSlash path)
      rw [hsegs] at ih ⊢
      have htail : seg ++ joinPath segs = path.map toSlash := (List.cons.inj ih).2
      rw [if_neg Bool.false_ne_true, hb, ← htail]
      rfl

theorem joinPath_encode (set : EscapeSet) (segs : List (List UInt8)) :
    joinPath (segs.map set.encode) = set.encode (joinPath segs) := by
  induction segs with
  | nil => rfl
  | cons seg segs ih =>
    have hjoin : ∀ s ss, joinPath (s :: ss) = 47 :: s ++ joinPath ss := fun _ _ => rfl
    rw [List.map_cons, hjoin, hjoin, ih, set.encode_append, set.encode_cons_plain set.slash]

theorem decodedLength_toSlash (bytes : List UInt8) :
    decodedLength (bytes.map toSlash) = decodedLength bytes := by
  refine decodedLength_map (fun b hb => ?_) (fun b hb => ?_) bytes
  · unfold toSlash
    split
    · next heq =>
      rw [heq] at hb
      cases hb
    · rfl
  · unfold toSlash
    split
    · rfl
    · exact hb

/-- A prefix is the text, or what is behind it begins with a byte that ends it. -/
theorem takeWhile_cases (p : UInt8 → Bool) (text : List UInt8) :
    ((∀ b ∈ text, p b = true) ∧ text.takeWhile p = text ∧ text.dropWhile p = []) ∨
      ∃ b back, p b = false ∧ text.dropWhile p = b :: back := by
  cases hdrop : text.dropWhile p with
  | nil =>
    have hwhole := @List.takeWhile_append_dropWhile _ p text
    rw [hdrop, List.append_nil] at hwhole
    exact Or.inl ⟨List.dropWhile_eq_nil_iff.mp hdrop, hwhole, rfl⟩
  | cons b back =>
    have hhead := List.head?_dropWhile_not p text
    rw [hdrop] at hhead
    exact Or.inr ⟨b, back, hhead, rfl⟩

namespace UrlWriter
variable (writer : UrlWriter)

/-- What is behind the path of a text is nothing, or a query. -/
theorem query_cases (text : List UInt8) :
    (63 ∉ text ∧ text.dropWhile (· ≠ 63) = []) ∨
      ∃ query, text.dropWhile (· ≠ 63) = 63 :: query := by
  rcases takeWhile_cases (· ≠ 63) text with ⟨hall, -, hnone⟩ | ⟨mark, query, hmark, hsome⟩
  · refine Or.inl ⟨fun hmem => ?_, hnone⟩
    have hne := hall 63 hmem
    simp at hne
  · rw [decide_eq_false_iff_not, not_not] at hmark
    exact Or.inr ⟨query, hmark ▸ hsome⟩

theorem writeQuery_length {text : List UInt8} :
    decodedLength (writer.writeQuery (text.dropWhile (· ≠ 63))) =
      decodedLength (text.dropWhile (· ≠ 63)) := by
  rcases query_cases text with ⟨-, hnone⟩ | ⟨query, hsome⟩
  · rw [hnone]
    rfl
  · rw [hsome, writeQuery, decodedLength_cons rfl, decodedLength_cons rfl,
      EscapeSet.decodedLength_encode]

theorem writeQuery_head {text : List UInt8} :
    ∀ b ∈ (writer.writeQuery (text.dropWhile (· ≠ 63))).head?, isCode b = false := by
  intro b hb
  rcases query_cases text with ⟨-, hnone⟩ | ⟨query, hsome⟩
  · rw [hnone] at hb
    cases hb
  · rw [hsome] at hb
    cases hb
    rfl

theorem dropWhile_head {text : List UInt8} :
    ∀ b ∈ (text.dropWhile (· ≠ 63)).head?, isCode b = false := by
  intro b hb
  rcases query_cases text with ⟨-, hnone⟩ | ⟨query, hsome⟩
  · rw [hnone] at hb
    cases hb
  · rw [hsome] at hb
    cases hb
    rfl

theorem split_length (text : List UInt8) : decodedLength (text.takeWhile (· ≠ 63)) +
    decodedLength (text.dropWhile (· ≠ 63)) = decodedLength text := by
  rw [← decodedLength_append (dropWhile_head), List.takeWhile_append_dropWhile]

theorem spelled_length (text : List UInt8) :
    decodedLength (writer.spelled text) = decodedLength text := by
  rw [spelled, decodedLength_append writer.writeQuery_head, EscapeSet.decodedLength_encode,
    decodedLength_toSlash, writer.writeQuery_length, split_length]

theorem joinPath_segments (rest : List UInt8) : joinPath (writer.segments (47 :: rest)) =
    writer.pathSet.encode ((47 :: rest).map toSlash) := by
  rw [segments, joinPath_encode, List.drop_one, List.tail_cons, joinPath_splitOnP]
  rfl

theorem writePath_cases (rest : List UInt8) :
    (∀ seg ∈ writer.segments (47 :: rest), isDotted seg = false) ∨
    decodedLength (writer.writePath (47 :: rest)) < decodedLength (47 :: rest) := by
  have hlength : pathLength (writer.segments (47 :: rest)) = decodedLength (47 :: rest) := by
    rw [← decodedLength_joinPath, writer.joinPath_segments, EscapeSet.decodedLength_encode,
      decodedLength_toSlash]
  rcases resolve_cases (writer.segments (47 :: rest)) [] with hnone | hless
  · exact Or.inl hnone
  · right
    have hnil : pathLength [] = 0 := rfl
    rw [writePath, decodedLength_joinPath]
    omega

theorem takeWhile_slash {b : UInt8} (hb : b ≠ 47) (rest : List UInt8) :
    (47 :: rest).takeWhile (· ≠ b) = 47 :: rest.takeWhile (· ≠ b) :=
  List.takeWhile_cons_of_pos (decide_eq_true hb.symm)

/-- A text of which nothing is dropped is sent as it is spelled. -/
theorem writeTarget_kept {rest : List UInt8} (h : writer.Kept (47 :: rest)) :
    writer.writeTarget (cleanText (47 :: rest)) = writer.spelled (47 :: rest) := by
  have hclean : cleanText (47 :: rest) = 47 :: rest := by
    have hclosed := (rdropWhile_slash rest).symm.trans h.closed
    rw [cleanText_slash, (List.cons.inj hclosed).2]
    congr 1
    refine List.filter_eq_self.mpr fun b hb => ?_
    rw [(h.visible b (List.mem_cons_of_mem _ hb)).1]
    rfl
  have hcut : (47 :: rest).takeWhile (· ≠ 35) = 47 :: rest :=
    List.takeWhile_eq_self_iff.mpr fun b hb => decide_eq_true (h.visible b hb).2
  have hundotted := h.undotted
  rw [takeWhile_slash (by decide)] at hundotted
  rw [hclean, writeTarget, hcut, takeWhile_slash (by decide), writePath,
    resolve_undotted hundotted, List.nil_append, writer.joinPath_segments, spelled,
    takeWhile_slash (by decide)]

theorem writePath_length_le (rest : List UInt8) :
    decodedLength (writer.writePath (47 :: rest)) ≤ decodedLength (47 :: rest) := by
  rcases writer.writePath_cases rest with hnone | hless
  · rw [writePath, resolve_undotted hnone, List.nil_append, writer.joinPath_segments,
      EscapeSet.decodedLength_encode, decodedLength_toSlash]
  · exact hless.le

theorem cut_cases (rest : List UInt8) :
    (35 ∉ rest ∧ rest.takeWhile (· ≠ 35) = rest) ∨
      decodedLength (rest.takeWhile (· ≠ 35)) < decodedLength rest := by
  rcases takeWhile_cases (· ≠ 35) rest with ⟨hall, hwhole, -⟩ | ⟨b, back, hb, hback⟩
  · refine Or.inl ⟨fun hmem => ?_, hwhole⟩
    have hne := hall 35 hmem
    simp at hne
  · right
    rw [decide_eq_false_iff_not, not_not] at hb
    have hparts := congrArg decodedLength
      (@List.takeWhile_append_dropWhile _ (fun b : UInt8 => decide (b ≠ 35)) rest)
    rw [hback, hb, decodedLength_append_cons _ rfl] at hparts
    omega

theorem writeTarget_length (rest : List UInt8) :
    decodedLength (writer.writeTarget (47 :: rest)) =
      decodedLength (writer.writePath (47 :: (rest.takeWhile (· ≠ 35)).takeWhile (· ≠ 63))) +
        decodedLength ((47 :: rest.takeWhile (· ≠ 35)).dropWhile (· ≠ 63)) := by
  rw [writeTarget, takeWhile_slash (by decide), decodedLength_append writer.writeQuery_head,
    writer.writeQuery_length, takeWhile_slash (by decide)]

theorem writeTarget_length_le (rest : List UInt8) :
    decodedLength (writer.writeTarget (47 :: rest)) ≤
      decodedLength (47 :: rest.takeWhile (· ≠ 35)) := by
  have hsplit := split_length (47 :: rest.takeWhile (· ≠ 35))
  have hle := writer.writePath_length_le ((rest.takeWhile (· ≠ 35)).takeWhile (· ≠ 63))
  rw [takeWhile_slash (by decide)] at hsplit
  rw [writeTarget_length]
  omega

theorem writeTarget_uncleaned (rest : List UInt8) :
    (35 ∉ rest ∧
      ∀ seg ∈ writer.segments ((47 :: rest).takeWhile (· ≠ 63)), isDotted seg = false) ∨
    decodedLength (writer.writeTarget (47 :: rest)) < decodedLength (47 :: rest) := by
  rcases cut_cases rest with ⟨hnone, hwhole⟩ | hless
  · have hlength := writer.writeTarget_length rest
    have hsplit := split_length (47 :: rest)
    rw [hwhole] at hlength
    rw [takeWhile_slash (by decide)] at hsplit ⊢
    rcases writer.writePath_cases (rest.takeWhile (· ≠ 63)) with hundotted | hless
    · exact Or.inl ⟨hnone, hundotted⟩
    · exact Or.inr (by omega)
  · have hle := writer.writeTarget_length_le rest
    rw [decodedLength_cons rfl] at hle ⊢
    exact Or.inr (by omega)

/-- What is sent of a text behind a host stands for fewer bytes, if some are dropped. -/
theorem writeTarget_cases (rest : List UInt8) : writer.Kept (47 :: rest) ∨
    decodedLength (writer.writeTarget (cleanText (47 :: rest))) < decodedLength (47 :: rest) := by
  rcases cleanText_cases rest with ⟨hclosed, hvisible, hclean⟩ | hless
  · rw [hclean]
    rcases writer.writeTarget_uncleaned rest with ⟨hnone, hundotted⟩ | hless
    · left
      refine ⟨?_, ?_, hundotted⟩
      · rw [rdropWhile_slash, hclosed]
      · refine List.forall_mem_cons.mpr ⟨by decide, fun b hb => ⟨hvisible b hb, fun heq => ?_⟩⟩
        exact hnone (heq ▸ hb)
    · exact Or.inr hless
  · right
    rw [cleanText_slash] at hless ⊢
    generalize ((rest.rdropWhile isSpace).filter fun b => !isIgnored b) = cleaned at hless
    have hle := writer.writeTarget_length_le cleaned
    have hcut : decodedLength (cleaned.takeWhile (· ≠ 35)) ≤ decodedLength cleaned := by
      rcases cut_cases cleaned with ⟨-, hwhole⟩ | hshorter
      · rw [hwhole]
      · exact hshorter.le
    rw [decodedLength_cons rfl] at hle hless
    omega

/-! ### Scheme and host -/

theorem readScheme_scheme (secure : Bool) (rest : List UInt8) :
    readScheme (schemeText secure ++ rest) = some (secure, rest) := by
  cases secure <;> rfl

theorem schemeText_large (secure : Bool) : ∀ b ∈ schemeText secure, 32 < b := by
  cases secure <;> decide +kernel

theorem takeWhile_host {name : List UInt8} (h : ∀ b ∈ name, endsHost b = false)
    (rest : List UInt8) :
    (name ++ 47 :: rest).takeWhile (fun b => !endsHost b) = name ∧
      (name ++ 47 :: rest).dropWhile (fun b => !endsHost b) = 47 :: rest := by
  have hall : ∀ b ∈ name, (!endsHost b) = true := by
    intro b hb
    rw [h b hb]
    rfl
  rw [List.takeWhile_append_of_pos hall, List.dropWhile_append_of_pos hall,
    List.takeWhile_cons_of_neg (by decide), List.dropWhile_cons_of_neg (by decide),
    List.append_nil]
  exact ⟨rfl, rfl⟩

/-- The URL for a text that is split already; it takes any number of slashes. -/
theorem sends_origin {name : List UInt8} (hname : HostText name) (secure : Bool) (slashes : ℕ)
    (rest : List UInt8) :
    writer.sends (schemeText secure ++ (List.replicate slashes 47 ++ (name ++ 47 :: rest))) =
      (writer.host secure name).bind fun sent =>
        let url := schemeText secure ++ [47, 47] ++ sent ++
          writer.writeTarget (cleanText (47 :: rest))
        if url.length ≤ writer.limit then some url else none := by
  have hfront : ∀ b ∈ schemeText secure ++ (List.replicate slashes 47 ++ name), 32 < b := by
    refine List.forall_mem_append.mpr ⟨schemeText_large secure, List.forall_mem_append.mpr
      ⟨fun b hb => ?_, fun b hb => (hname.2 b hb).1⟩⟩
    rw [List.eq_of_mem_replicate hb]
    decide
  have hclean : cleanText (schemeText secure ++ (List.replicate slashes 47 ++ (name ++ 47 :: rest))) =
      schemeText secure ++ (List.replicate slashes 47 ++ (name ++ cleanText (47 :: rest))) := by
    have happend := cleanText_append hfront rest
    rw [← cleanText_slash] at happend
    simpa only [List.append_assoc] using happend
  have hslashes : ∀ back : List UInt8,
      (List.replicate slashes 47 ++ (name ++ back)).dropWhile isSlash = name ++ back := by
    intro back
    rw [List.dropWhile_append_of_pos fun b hb => by rw [List.eq_of_mem_replicate hb]; rfl]
    obtain ⟨b, bs, hcons⟩ := List.exists_cons_of_ne_nil hname.1
    have hends := (hname.2 b (by rw [hcons]; exact List.mem_cons_self ..)).2.2
    have hslash : isSlash b = false := by
      simp only [endsHost, Bool.or_eq_false_iff] at hends
      exact hends.1.1
    rw [hcons, List.cons_append]
    exact List.dropWhile_cons_of_neg (by rw [hslash]; exact Bool.false_ne_true)
  have hhost := takeWhile_host fun b hb => (hname.2 b hb).2.2
  unfold sends
  rw [hclean, readScheme_scheme, Option.bind_some]
  simp only [hslashes]
  rw [cleanText_slash, (hhost _).1, (hhost _).2]

theorem resolve_ne_nil {segs path : List (List UInt8)} (h : segs = [] → path ≠ []) :
    resolve path segs ≠ [] := by
  induction segs generalizing path with
  | nil => exact h rfl
  | cons seg segs ih =>
    rw [resolve]
    cases isDotted seg with
    | true =>
      rw [if_pos rfl]
      refine ih fun hlast => ?_
      rw [if_pos hlast]
      exact List.append_ne_nil_of_right_ne_nil _ (List.cons_ne_nil _ _)
    | false =>
      rw [if_neg Bool.false_ne_true]
      exact ih fun _ => List.append_ne_nil_of_right_ne_nil _ (List.cons_ne_nil _ _)

theorem writeTarget_slash (text : List UInt8) : ∃ rest, writer.writeTarget text = 47 :: rest := by
  have hsegs : ∀ path, resolve [] (writer.segments path) ≠ [] := by
    intro path
    refine resolve_ne_nil fun hnil => ?_
    exact (List.splitOnP_ne_nil _ _ (List.map_eq_nil_iff.mp hnil)).elim
  rw [writeTarget, writePath]
  obtain ⟨seg, segs, hcons⟩ := List.exists_cons_of_ne_nil
    (hsegs ((text.takeWhile (· ≠ 35)).takeWhile (· ≠ 63)))
  rw [hcons]
  exact ⟨_, rfl⟩

/-- What is sent has a host, and a slash behind it. -/
theorem sends_shape {text url : List UInt8} (h : writer.sends text = some url) :
    ∃ secure name rest, HostText name ∧
      url = schemeText secure ++ [47, 47] ++ name ++ 47 :: rest ∧ url.length ≤ writer.limit := by
  obtain ⟨scheme, -, hrest⟩ := Option.bind_eq_some_iff.mp h
  obtain ⟨name, hname, hurl⟩ := Option.bind_eq_some_iff.mp hrest
  obtain ⟨rest, hslash⟩ := writer.writeTarget_slash
    ((scheme.2.dropWhile isSlash).dropWhile fun b => !endsHost b)
  simp only [hslash] at hurl
  split at hurl
  · next hlimit =>
    rw [Option.some_inj] at hurl
    rw [← hurl]
    exact ⟨scheme.1, name, rest, writer.host_written hname, rfl, hlimit⟩
  · cases hurl

/-- The host and the target of a URL can be read off. -/
theorem url_inj {secure secure' : Bool} {name name' rest rest' : List UInt8} (hname : HostText name)
    (hname' : HostText name')
    (h : schemeText secure ++ [47, 47] ++ name ++ 47 :: rest =
      schemeText secure' ++ [47, 47] ++ name' ++ 47 :: rest') :
    secure = secure' ∧ name = name' ∧ rest = rest' := by
  rw [List.append_assoc, List.append_assoc, List.append_assoc, List.append_assoc] at h
  have hscheme := congrArg readScheme h
  rw [readScheme_scheme, readScheme_scheme, Option.some_inj, Prod.mk.injEq] at hscheme
  obtain ⟨hsecure, hback⟩ := hscheme
  have htext := List.append_cancel_left hback
  have hhost := takeWhile_host fun b hb => (hname.2 b hb).2.2
  have hhost' := takeWhile_host fun b hb => (hname'.2 b hb).2.2
  have htake := congrArg (List.takeWhile fun b => !endsHost b) htext
  have hdrop := congrArg (List.dropWhile fun b => !endsHost b) htext
  rw [(hhost rest).1, (hhost' rest').1] at htake
  rw [(hhost rest).2, (hhost' rest').2] at hdrop
  exact ⟨hsecure, htake, (List.cons.inj hdrop).2⟩

end UrlWriter
end AiGateway.Library
