import DenonAvr.Infrastructure.AppCommandHttp

/-!
# Chunked encoding

What a chunked body may look like, and that `decodeChunkedBody` undoes it: each chunk with a size in any spelling and
perhaps an extension, then the last chunk and any trailers. Of each strict prefix the decoder waits for more.

That a line has no CRLF is `Unbroken`; data and what is put behind the body may be anything.
-/

namespace DenonAvr.Infrastructure

open Domain Library

/-! ### The encoding -/

/-- There is no CRLF within. -/
def Unbroken (bytes : List UInt8) : Prop := bytes.IsChain fun a b => ¬(a = 13 ∧ b = 10)

/-- The number that hexadecimal digits stand for. -/
def hexValue (digits : List Char) : ℕ := numberOf 16 (digits.filterMap (digitOf 16))

/-- A line with a size in hexadecimal digits, of either case and with any number of leading zeros. -/
structure SizeLine where
  digits : List Char
  extension : Option (List Char)
  digits_ne_nil : digits ≠ []
  hex : ∀ c ∈ digits, (digitOf 16 c).isSome
  unbroken : ∀ text, extension = some text → Unbroken (Utf8.encode text)

namespace SizeLine

def size (line : SizeLine) : ℕ := hexValue line.digits

def bytes (line : SizeLine) : List UInt8 :=
  Utf8.encode (line.digits ++ (line.extension.map fun text => ';' :: text).getD [])

end SizeLine

structure Chunk where
  line : SizeLine
  data : List UInt8
  data_ne_nil : data ≠ []
  sized : line.size = data.length

def Chunk.encode (chunk : Chunk) : List UInt8 := chunk.line.bytes ++ crlf ++ (chunk.data ++ crlf)

structure Trailer where
  line : List UInt8
  line_ne_nil : line ≠ []
  unbroken : Unbroken line

structure ChunkedBody where
  chunks : List Chunk
  last : SizeLine
  ends : last.size = 0
  trailers : List Trailer

def encodeTrailers (trailers : List Trailer) : List UInt8 := trailers.flatMap fun trailer => trailer.line ++ crlf

namespace ChunkedBody

def body (b : ChunkedBody) : List UInt8 := b.chunks.flatMap Chunk.data

def encode (b : ChunkedBody) : List UInt8 :=
  b.chunks.flatMap Chunk.encode ++ (b.last.bytes ++ crlf ++ (encodeTrailers b.trailers ++ crlf))

end ChunkedBody

/-- What can be the bytes of a `&[u8]`, which is no longer than `isize::MAX`. -/
def IsSlice (bytes : List UInt8) : Prop := bytes.length < 2 ^ 63

/-! ### Lines -/

section Lines
variable {line before after rest : List UInt8} {c : Char} {text : List Char}

/-- A CRLF does not begin within a line without one. -/
theorem not_prefix_of_unbroken (h : Unbroken (before ++ after)) (hne : after ≠ []) (rest : List UInt8) :
    crlf.isPrefixOf (after ++ 13 :: rest) = false := by
  rw [Bool.eq_false_iff, ne_eq, List.isPrefixOf_iff_prefix]
  obtain ⟨-, hafter, -⟩ := List.isChain_append.mp h
  intro hprefix
  rcases after with _ | ⟨a, _ | ⟨b, after⟩⟩
  · exact hne rfl
  · have hten := (List.cons_prefix_cons.mp (List.cons_prefix_cons.mp hprefix).2).1
    cases hten
  · obtain ⟨ha, hrest⟩ := List.cons_prefix_cons.mp hprefix
    obtain ⟨hb, -⟩ := List.cons_prefix_cons.mp hrest
    exact (List.isChain_cons_cons.mp hafter).1 ⟨ha.symm, hb.symm⟩

/-- The end of a line. -/
theorem find_crlf (h : Unbroken line) (rest : List UInt8) : find crlf (line ++ (crlf ++ rest)) = some line.length := by
  show find crlf (line ++ 13 :: 10 :: rest) = _
  rw [find_append_of_apart fun head tail heq hne => not_prefix_of_unbroken (heq ▸ h) hne (10 :: rest)]
  simp [find_cons, crlf]

/-- The end of a line with an empty line behind it. -/
theorem find_crlf_crlf (h : Unbroken line) (rest : List UInt8) :
    find (crlf ++ crlf) (line ++ (crlf ++ rest)) =
      if rest.take 2 = crlf then some line.length
      else (find (crlf ++ crlf) rest).map (· + (line.length + 2)) := by
  have htwice : ∀ {bytes}, crlf.isPrefixOf bytes = false → (crlf ++ crlf).isPrefixOf bytes = false := by
    intro bytes hnot
    rw [Bool.eq_false_iff, ne_eq, List.isPrefixOf_iff_prefix] at hnot ⊢
    exact fun hprefix => hnot ((List.prefix_append crlf crlf).trans hprefix)
  show find (crlf ++ crlf) (line ++ 13 :: 10 :: rest) = _
  rw [find_append_of_apart fun head tail heq hne => htwice (not_prefix_of_unbroken (heq ▸ h) hne (10 :: rest))]
  have hhere : (crlf ++ crlf).isPrefixOf (13 :: 10 :: rest) = decide (rest.take 2 = crlf) := by
    rw [Bool.eq_iff_iff, List.isPrefixOf_iff_prefix, decide_eq_true_iff]
    show 13 :: 10 :: crlf <+: 13 :: 10 :: rest ↔ _
    rw [List.cons_prefix_cons, List.cons_prefix_cons, List.prefix_iff_eq_take]
    simp [crlf, eq_comm]
  have hnext : (crlf ++ crlf).isPrefixOf (10 :: rest) = false := rfl
  rw [find_cons, hhere, find_cons, hnext]
  by_cases hend : rest.take 2 = crlf
  · simp [hend]
  · rw [decide_eq_false hend, if_neg hend]
    simp only [Bool.false_eq_true, if_false, Option.map_map]
    refine congrArg (Option.map · _) (funext fun n => ?_)
    show n + 1 + 1 + line.length = n + (line.length + 2)
    omega

theorem unbroken_of_notMem (h : (10 : UInt8) ∉ line) : Unbroken line := by
  induction line with
  | nil => exact .nil
  | cons a line ih =>
    rw [List.mem_cons, not_or] at h
    refine List.isChain_cons.mpr ⟨fun b hb => ?_, ih h.2⟩
    rintro ⟨-, rfl⟩
    exact h.2 (List.mem_of_mem_head? hb)

/-- A line with a size is one line. -/
theorem SizeLine.unbroken_bytes (line : SizeLine) : Unbroken line.bytes := by
  have hdigits : (10 : UInt8) ∉ Utf8.encode line.digits := by
    rw [Utf8.newline_mem_encode]
    intro hmem
    exact absurd (line.hex '\n' hmem) (by decide)
  unfold SizeLine.bytes
  rw [Utf8.encode_append]
  cases hextension : line.extension with
  | none =>
    rw [Option.map_none, Option.getD_none]
    exact unbroken_of_notMem (by simpa [Utf8.encode] using hdigits)
  | some text =>
    rw [Option.map_some, Option.getD_some, Utf8.encode_cons]
    refine List.isChain_append.mpr ⟨unbroken_of_notMem hdigits, ?_, ?_⟩
    · refine List.isChain_cons.mpr ⟨fun b hb => ?_, line.unbroken text hextension⟩
      rintro ⟨h, -⟩
      cases h
    · rintro a - b hb ⟨-, rfl⟩
      cases hb

theorem toNat_of_digitOf (h : (digitOf 16 c).isSome = true) :
    48 ≤ c.toNat ∧ c.toNat ≤ 57 ∨ 97 ≤ c.toNat ∧ c.toNat ≤ 102 ∨ 65 ≤ c.toNat ∧ c.toNat ≤ 70 := by
  have hle : ∀ a b : Char, a ≤ b ↔ a.toNat ≤ b.toNat := fun a b => Iff.rfl
  have hcodes : '0'.toNat = 48 ∧ '9'.toNat = 57 ∧ 'a'.toNat = 97 ∧ 'z'.toNat = 122 ∧ 'A'.toNat = 65 ∧ 'Z'.toNat = 90 :=
    ⟨rfl, rfl, rfl, rfl, rfl, rfl⟩
  obtain ⟨h0, h9, ha, hz, hA, hZ⟩ := hcodes
  unfold digitOf at h
  simp only [hle, h0, h9, ha, hz, hA, hZ] at h
  split_ifs at h <;> first | omega | cases h

/-- A digit is no whitespace, nor a sign or what begins an extension. -/
theorem not_special_of_digitOf (h : (digitOf 16 c).isSome = true) : isWhitespace c = false ∧ c ≠ ';' ∧ c ≠ '+' := by
  have hrange := toNat_of_digitOf h
  refine ⟨?_, ?_, ?_⟩
  · unfold isWhitespace
    simp
    omega
  · rintro rfl
    exact absurd hrange (by decide)
  · rintro rfl
    exact absurd hrange (by decide)

theorem trim_of_not_whitespace (h : ∀ c ∈ text, isWhitespace c = false) : trim text = text := by
  have hkeep : ∀ {text : List Char}, (∀ c ∈ text, isWhitespace c = false) → text.dropWhile isWhitespace = text := by
    intro text h
    cases text with
    | nil => rfl
    | cons c text => exact List.dropWhile_cons_of_neg (by simp [h c List.mem_cons_self])
  unfold trim
  rw [hkeep h, hkeep fun c hc => h c (List.mem_reverse.mp hc), List.reverse_reverse]

/-- Digits are read as what they stand for. -/
theorem parseUnsigned_hex {digits : List Char} (hne : digits ≠ []) (hhex : ∀ c ∈ digits, (digitOf 16 c).isSome)
    (hvalue : hexValue digits ≤ usizeMax) : parseUnsigned 16 usizeMax digits = some (hexValue digits) := by
  have hall : digits.mapM (digitOf 16) = some (digits.filterMap (digitOf 16)) := by
    clear hne hvalue
    induction digits with
    | nil => rfl
    | cons c digits ih =>
      obtain ⟨value, hvalue⟩ := Option.isSome_iff_exists.mp (hhex c List.mem_cons_self)
      rw [List.mapM_cons, hvalue, ih fun c hc => hhex c (List.mem_cons_of_mem _ hc), List.filterMap_cons_some hvalue]
      rfl
  have hsign : digits.head? ≠ some '+' := by
    intro hplus
    exact (not_special_of_digitOf (hhex '+' (List.mem_of_mem_head? hplus))).2.2 rfl
  unfold parseUnsigned
  dsimp only
  rw [if_neg hsign, if_neg (by simpa using hne), hall, Option.bind_some]
  exact if_pos hvalue

theorem SizeLine.chunkSize_bytes (line : SizeLine) (h : line.size ≤ usizeMax) : chunkSize line.bytes = .ok line.size := by
  have hspecial := fun c hc => not_special_of_digitOf (line.hex c hc)
  have htake : (line.digits ++ (line.extension.map fun text => ';' :: text).getD []).takeWhile (· ≠ ';') = line.digits := by
    rw [List.takeWhile_append_of_pos fun c hc => by simpa using (hspecial c hc).2.1]
    cases line.extension <;> simp
  unfold chunkSize SizeLine.bytes
  rw [Utf8.decode_eq_some.mpr rfl]
  dsimp only
  rw [htake, trim_of_not_whitespace fun c hc => (hspecial c hc).1, parseUnsigned_hex line.digits_ne_nil line.hex h]
  rfl

/-- The decoder at the beginning of a line with a size. -/
theorem SizeLine.read (line : SizeLine) (h : line.size ≤ usizeMax) (rest : List UInt8) :
    find crlf (line.bytes ++ (crlf ++ rest)) = some line.bytes.length ∧
      chunkSize ((line.bytes ++ (crlf ++ rest)).take line.bytes.length) = .ok line.size ∧
        (line.bytes ++ (crlf ++ rest)).drop (line.bytes.length + 2) = rest := by
  refine ⟨find_crlf line.unbroken_bytes rest, ?_, ?_⟩
  · rw [List.take_left]
    exact line.chunkSize_bytes h
  · rw [← List.drop_drop, List.drop_left]
    rfl

end Lines

/-! ### The round trip -/

section RoundTrip
variable {decoded rest : List UInt8} {cursor : ℕ}

theorem take_two_trailers (trailer : Trailer) (trailers : List Trailer) (rest : List UInt8) :
    (encodeTrailers (trailer :: trailers) ++ (crlf ++ rest)).take 2 ≠ crlf := by
  intro htake
  have hsplit : encodeTrailers (trailer :: trailers) ++ (crlf ++ rest) =
      trailer.line ++ 13 :: (10 :: (encodeTrailers trailers ++ (crlf ++ rest))) := by
    simp [encodeTrailers, crlf]
  have hprefix : crlf.isPrefixOf (encodeTrailers (trailer :: trailers) ++ (crlf ++ rest)) = true := by
    rw [List.isPrefixOf_iff_prefix]
    exact (congrArg (· <+: _) htake).mp (List.take_prefix 2 _)
  rw [hsplit, not_prefix_of_unbroken (show Unbroken ([] ++ trailer.line) from trailer.unbroken) trailer.line_ne_nil]
    at hprefix
  cases hprefix

/-- The end of the trailers is where the first empty line is. -/
theorem find_trailers (trailer : Trailer) (trailers : List Trailer) (rest : List UInt8) :
    ∃ n, find (crlf ++ crlf) (encodeTrailers (trailer :: trailers) ++ (crlf ++ rest)) = some n ∧
      n + 2 = (encodeTrailers (trailer :: trailers)).length := by
  induction trailers generalizing trailer with
  | nil =>
    refine ⟨trailer.line.length, ?_, ?_⟩
    · have hsplit : encodeTrailers [trailer] ++ (crlf ++ rest) = trailer.line ++ (crlf ++ (crlf ++ rest)) := by
        simp [encodeTrailers]
      rw [hsplit, find_crlf_crlf trailer.unbroken, if_pos (by simp [crlf])]
    · simp [encodeTrailers, crlf]
  | cons next trailers ih =>
    obtain ⟨n, hfind, hn⟩ := ih next
    have hsplit : encodeTrailers (trailer :: next :: trailers) ++ (crlf ++ rest) =
        trailer.line ++ (crlf ++ (encodeTrailers (next :: trailers) ++ (crlf ++ rest))) := by
      simp [encodeTrailers]
    refine ⟨n + (trailer.line.length + 2), ?_, ?_⟩
    · rw [hsplit, find_crlf_crlf trailer.unbroken, if_neg (take_two_trailers next trailers rest), hfind]
      rfl
    · have hlength : (encodeTrailers (trailer :: next :: trailers)).length =
          trailer.line.length + 2 + (encodeTrailers (next :: trailers)).length := by
        simp [encodeTrailers, crlf]
        omega
      omega

/-- The last chunk, with its trailers. -/
theorem decodeChunks_last (last : SizeLine) (hlast : last.size = 0) (trailers : List Trailer) (decoded : List UInt8)
    (cursor : ℕ) (rest : List UInt8) :
    decodeChunks decoded cursor (last.bytes ++ (crlf ++ (encodeTrailers trailers ++ (crlf ++ rest)))) =
      .ok (some (decoded, cursor + (last.bytes ++ crlf ++ (encodeTrailers trailers ++ crlf)).length)) := by
  obtain ⟨hfind, hsize, hdrop⟩ := last.read (by rw [hlast]; exact Nat.zero_le _) (encodeTrailers trailers ++ (crlf ++ rest))
  rw [decodeChunks_of_size decoded cursor hfind hsize, hdrop, if_pos hlast]
  have hcrlf : crlf.length = 2 := rfl
  cases trailers with
  | nil =>
    have hend : (encodeTrailers [] ++ (crlf ++ rest)).take 2 = crlf := by simp [encodeTrailers, crlf]
    rw [if_pos hend]
    simp only [encodeTrailers, List.flatMap_nil, List.nil_append, List.length_append, hcrlf, Nat.add_assoc]
  | cons trailer trailers =>
    obtain ⟨n, hfind, hn⟩ := find_trailers trailer trailers rest
    rw [if_neg (take_two_trailers trailer trailers rest), hfind]
    simp only [List.length_append, hcrlf, ← hn]
    refine congrArg (fun length => Except.ok (some (decoded, length))) ?_
    omega

/-- One chunk, whatever is behind it. -/
theorem decodeChunks_chunk (chunk : Chunk) (hbody : decoded.length + chunk.data.length ≤ maxResponseBytes)
    (hcursor : cursor + chunk.encode.length < 2 ^ 63) (rest : List UInt8) :
    decodeChunks decoded cursor (chunk.encode ++ rest) =
      decodeChunks (decoded ++ chunk.data) (cursor + chunk.encode.length) rest := by
  have hcrlf : crlf.length = 2 := rfl
  have hlength : chunk.encode.length = chunk.line.bytes.length + 2 + (chunk.data.length + 2) := by
    simp [Chunk.encode, hcrlf, Nat.add_assoc]
  have hmax : maxResponseBytes = 1048576 := rfl
  have husize : usizeMax = 18446744073709551615 := rfl
  have hsized := chunk.sized
  have hpos := List.length_pos_of_ne_nil chunk.data_ne_nil
  have hsplit : chunk.encode ++ rest = chunk.line.bytes ++ (crlf ++ (chunk.data ++ (crlf ++ rest))) := by
    simp [Chunk.encode]
  obtain ⟨hfind, hsize, hdrop⟩ := chunk.line.read (by omega) (chunk.data ++ (crlf ++ rest))
  rw [hsplit, decodeChunks_of_size decoded cursor hfind hsize, hdrop, hsized]
  have hdata : (chunk.data ++ (crlf ++ rest)).drop chunk.data.length = crlf ++ rest := List.drop_left
  have hnext : (chunk.data ++ (crlf ++ rest)).drop (chunk.data.length + 2) = rest := by
    rw [← List.drop_drop, hdata]
    rfl
  rw [if_neg (by omega), if_neg (by omega), if_neg (by simp only [List.length_append, hcrlf]; omega), hdata,
    if_neg (by simp [crlf]), if_neg (by omega), hnext, List.take_left, hlength, Nat.add_assoc]

/-- The chunks, one after another. -/
theorem decodeChunks_chunks (chunks : List Chunk) (decoded : List UInt8) (cursor : ℕ) (rest : List UInt8)
    (hbody : (decoded ++ chunks.flatMap Chunk.data).length ≤ maxResponseBytes)
    (hcursor : cursor + (chunks.flatMap Chunk.encode).length < 2 ^ 63) :
    decodeChunks decoded cursor (chunks.flatMap Chunk.encode ++ rest) =
      decodeChunks (decoded ++ chunks.flatMap Chunk.data) (cursor + (chunks.flatMap Chunk.encode).length) rest := by
  induction chunks generalizing decoded cursor with
  | nil => simp
  | cons chunk chunks ih =>
    simp only [List.flatMap_cons, List.length_append] at hbody hcursor ⊢
    rw [List.append_assoc, decodeChunks_chunk chunk (by omega) (by omega), ih]
    · rw [List.append_assoc, Nat.add_assoc]
    · simp only [List.length_append]
      omega
    · omega

theorem decodeChunkedBody_encode (b : ChunkedBody) (hbody : b.body.length ≤ maxResponseBytes) (rest : List UInt8)
    (hslice : IsSlice (b.encode ++ rest)) :
    decodeChunkedBody (b.encode ++ rest) = .ok (some (b.body, b.encode.length)) := by
  have hsplit : b.encode ++ rest = b.chunks.flatMap Chunk.encode ++
      (b.last.bytes ++ (crlf ++ (encodeTrailers b.trailers ++ (crlf ++ rest)))) := by
    simp [ChunkedBody.encode]
  have hlength : b.encode.length = (b.chunks.flatMap Chunk.encode).length +
      (b.last.bytes ++ crlf ++ (encodeTrailers b.trailers ++ crlf)).length := List.length_append
  unfold IsSlice at hslice
  rw [List.length_append] at hslice
  unfold decodeChunkedBody
  rw [hsplit, decodeChunks_chunks b.chunks [] 0 _ hbody (by omega), decodeChunks_last b.last b.ends, hlength, Nat.zero_add]
  rfl

/-- **Chunked decoding** undoes chunked encoding, and of less than all of it says that it is incomplete. -/
theorem chunked_round_trip (b : ChunkedBody) (hbody : b.body.length ≤ maxResponseBytes) :
    (∀ rest, IsSlice (b.encode ++ rest) →
      decodeChunkedBody (b.encode ++ rest) = .ok (some (b.body, b.encode.length))) ∧
    (IsSlice b.encode → ∀ cut, cut <+: b.encode → cut ≠ b.encode → decodeChunkedBody cut = .ok none) := by
  refine ⟨fun rest hslice => decodeChunkedBody_encode b hbody rest hslice, fun hslice cut hcut hne => ?_⟩
  obtain ⟨more, hmore⟩ := hcut
  have hwhole := decodeChunkedBody_encode b hbody [] (by rwa [List.append_nil])
  rw [List.append_nil, ← hmore] at hwhole
  by_contra hsome
  -- an answer to the cut would be the answer to the whole, which ends behind it
  rw [decodeChunkedBody_append cut more hsome] at hwhole
  have hle := length_of_decodeChunks [] 0 cut hwhole
  have hnil : more ≠ [] := by
    rintro rfl
    exact hne (by rw [← hmore, List.append_nil])
  have hpos := List.length_pos_of_ne_nil hnil
  rw [List.length_append] at hle
  omega

/-- A chunk whose data looks like the end, with an extension, and a trailer. -/
def rxBody : ChunkedBody where
  chunks :=
    [{ line := ⟨['0', 'B'], some ['x'], by decide, List.all_eq_true.mp (by decide), by rintro text ⟨⟩; exact .singleton _⟩
       data := [60, 114, 120, 62, 48, 13, 10, 48, 13, 10, 13]
       data_ne_nil := by decide
       sized := by decide }]
  last := ⟨['0', '0'], none, by decide, List.all_eq_true.mp (by decide), by rintro text ⟨⟩⟩
  ends := by decide
  trailers := [⟨[65, 58, 49], by decide, unbroken_of_notMem (by decide)⟩]

theorem chunked_round_trip_rxBody :
    decodeChunkedBody (rxBody.encode ++ [13, 10]) = .ok (some (rxBody.body, rxBody.encode.length)) ∧
      decodeChunkedBody (rxBody.encode.take 13) = .ok none :=
  have h := chunked_round_trip rxBody (by decide +kernel)
  ⟨h.1 [13, 10] (by unfold IsSlice; decide +kernel),
    h.2 (by unfold IsSlice; decide +kernel) _ (List.take_prefix _ _) (by decide +kernel)⟩

end RoundTrip

end DenonAvr.Infrastructure
