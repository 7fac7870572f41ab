import DenonAvr.Infrastructure.AuditLine
import DenonAvr.Infrastructure.Text
import DenonAvr.Library.Utf8

/-!
# The files of the audit log

The log's files, how one is read line by line, and how the set is rotated.

The code has two ways to read a file: `linesOf` cuts its bytes into lines and reads each, and `readLines` reads the
whole file as text and cuts that. Both find the same entries in a file that holds lines of this log, whole or cut short
(`Reads`).
-/

namespace DenonAvr.Infrastructure

open Domain Application Library

/-! ### Reading -/

def isBlankLine (text : List Char) : Bool := text.all isWhitespace

/-- The lines `for_each_line` hands on. The line ending it reads with each of them is lost in `trim`. -/
def linesOf (bytes : List UInt8) : List (List Char) :=
  ((bytes.splitOn 10).map fun line => trim (Utf8.decodeLossy line)).filter fun text => decide (text ≠ [])

def readLines (bytes : List UInt8) : List (List Char) :=
  ((Utf8.decodeLossy bytes).splitOn '\n').filter fun line => !isBlankLine line

/-- The entries of the lines that parse, oldest first. -/
def entriesOf (json : JsonText) (bytes : List UInt8) : List Decoded := (linesOf bytes).filterMap (decodeLine json)

def readEntries (json : JsonText) (bytes : List UInt8) : List Decoded := (readLines bytes).filterMap (decodeLine json)

/-- The bytes of a line, with its line ending. -/
def lineOf (json : JsonText) (seq : ℕ) (record : AuditRecord) : List UInt8 :=
  Utf8.encode (encode json seq record ++ ['\n'])

/-- What both ways of reading have in common: a line ending separates what is read, a line of the log is read as its
entry, with its line ending or without, and what is less than a line is not read. -/
structure Reads (json : JsonText) (read : List UInt8 → List Decoded) : Prop where
  nil : read [] = []
  newline : ∀ bytes rest, read (bytes ++ 10 :: rest) = read bytes ++ read rest
  whole : ∀ seq record, recordFits record = true →
    read (Utf8.encode (encode json seq record)) = [⟨seq, some (boundedRecord record)⟩]
  cut : ∀ seq record bytes, bytes <+: Utf8.encode (encode json seq record) →
    bytes ≠ Utf8.encode (encode json seq record) → read bytes = []

section Trim
variable {text : List Char} {c d : Char}

theorem trim_eq_self (hfirst : isWhitespace c = false) (hlast : isWhitespace d = false) (body : List Char) :
    trim (c :: body ++ [d]) = c :: body ++ [d] := by
  unfold trim
  rw [List.cons_append, List.dropWhile_cons_of_neg (by simp [hfirst]), ← List.cons_append, List.reverse_append,
    List.reverse_singleton, List.singleton_append, List.dropWhile_cons_of_neg (by simp [hlast]), List.reverse_cons,
    List.reverse_reverse]

/-- Text that starts with something visible loses blanks at its end only. -/
theorem trim_prefix (hfirst : isWhitespace c = false) (body : List Char) : trim (c :: body) <+: c :: body := by
  unfold trim
  rw [List.dropWhile_cons_of_neg (by simp [hfirst]), ← List.reverse_suffix, List.reverse_reverse]
  exact List.dropWhile_suffix _

theorem trim_concat (hfirst : text = [] ∨ ∃ c body, text = c :: body ∧ isWhitespace c = false)
    (hlast : isWhitespace d = false) : trim (text ++ [d]) = text ++ [d] := by
  obtain rfl | ⟨c, body, rfl, hc⟩ := hfirst
  · unfold trim
    rw [List.nil_append, List.dropWhile_cons_of_neg (by simp [hlast]), List.reverse_singleton,
      List.dropWhile_cons_of_neg (by simp [hlast]), List.reverse_singleton]
  · exact trim_eq_self hc hlast body

end Trim

section Lines
variable {json : JsonText} {seq : ℕ} {record : AuditRecord} {bytes : List UInt8}

/-- What is left of a line that was cut short, as text. -/
theorem cut_cases (hjson : json.Lawful IsRecord) (hcut : bytes <+: Utf8.encode (encode json seq record))
    (hne : bytes ≠ Utf8.encode (encode json seq record)) :
    ∃ before, before <+: encode json seq record ∧ before ≠ encode json seq record ∧
      (Utf8.decodeLossy bytes = before ∨ Utf8.decodeLossy bytes = before ++ [Utf8.replacement]) ∧
        (10 : UInt8) ∉ bytes := by
  have hnewline : (10 : UInt8) ∉ bytes := fun hmem =>
    newline_encode hjson (Utf8.newline_mem_encode.mp (hcut.subset hmem))
  obtain ⟨before, after, htext, rfl | ⟨torn, htorn, hafter, rfl⟩⟩ := Utf8.prefix_encode hcut
  · refine ⟨before, ⟨after, htext.symm⟩, fun heq => hne (by rw [heq]), .inl (Utf8.decodeLossy_encode before), hnewline⟩
  · refine ⟨before, ⟨after, htext.symm⟩, fun heq => hafter ?_, .inr (Utf8.decodeLossy_encode_torn before htorn),
      hnewline⟩
    rw [← heq] at htext
    exact List.append_right_eq_self.mp htext.symm

/-- A piece of a line starts as the line does. -/
theorem cut_head (hjson : json.Lawful IsRecord) {before : List Char} (hcut : before <+: encode json seq record) :
    before = [] ∨ ∃ body, before = '{' :: body := by
  obtain ⟨body, hbody⟩ := encode_shape hjson seq record
  cases before with
  | nil => exact .inl rfl
  | cons c rest =>
    rw [hbody, List.cons_append] at hcut
    exact .inr ⟨rest, by rw [(List.cons_prefix_cons.mp hcut).1]⟩

theorem isWhitespace_brace : isWhitespace '{' = false ∧ isWhitespace '}' = false := by decide

theorem isWhitespace_replacement : isWhitespace Utf8.replacement = false := by decide

theorem decodeLine_replacement (hjson : json.Lawful IsRecord) (text : List Char) :
    decodeLine json (text ++ [Utf8.replacement]) = none := decodeLine_concat hjson text (by decide) (by decide)

/-- What is left of a line is not read, trimmed or not. -/
theorem decodeLine_cut_bytes (hjson : json.Lawful IsRecord) (hcut : bytes <+: Utf8.encode (encode json seq record))
    (hne : bytes ≠ Utf8.encode (encode json seq record)) :
    decodeLine json (Utf8.decodeLossy bytes) = none ∧ decodeLine json (trim (Utf8.decodeLossy bytes)) = none := by
  obtain ⟨before, hbefore, hshort, hread | hread, -⟩ := cut_cases hjson hcut hne
  · rw [hread]
    refine ⟨decodeLine_cut hjson hbefore hshort, ?_⟩
    obtain rfl | ⟨body, rfl⟩ := cut_head hjson hbefore
    · exact decodeLine_cut hjson hbefore hshort
    · have htrim := trim_prefix isWhitespace_brace.1 body
      refine decodeLine_cut hjson (htrim.trans hbefore) fun heq => hshort ?_
      exact hbefore.eq_of_length_le (heq ▸ htrim.length_le)
  · have hfirst : before = [] ∨ ∃ c body, before = c :: body ∧ isWhitespace c = false :=
      (cut_head hjson hbefore).imp_right fun h => h.elim fun body hbody => ⟨_, body, hbody, isWhitespace_brace.1⟩
    rw [hread, trim_concat hfirst isWhitespace_replacement]
    exact ⟨decodeLine_replacement hjson before, decodeLine_replacement hjson before⟩

theorem newline_not_mem_line (hjson : json.Lawful IsRecord) : (10 : UInt8) ∉ Utf8.encode (encode json seq record) :=
  fun hmem => newline_encode hjson (Utf8.newline_mem_encode.mp hmem)

theorem trim_encode (hjson : json.Lawful IsRecord) : trim (encode json seq record) = encode json seq record := by
  obtain ⟨body, hbody⟩ := encode_shape hjson seq record
  rw [hbody]
  exact trim_eq_self isWhitespace_brace.1 isWhitespace_brace.2 body

theorem filterMap_singleton {α β : Type*} (f : α → Option β) (a : α) : [a].filterMap f = (f a).toList := by
  cases h : f a <;> simp [h]

theorem entriesOf_line (hnewline : (10 : UInt8) ∉ bytes) :
    entriesOf json bytes = if trim (Utf8.decodeLossy bytes) = [] then []
      else (decodeLine json (trim (Utf8.decodeLossy bytes))).toList := by
  unfold entriesOf linesOf
  rw [List.splitOn_eq_singleton hnewline, List.map_singleton]
  split_ifs with h
  · simp [h]
  · rw [List.filter_singleton, decide_eq_true h, cond_true, filterMap_singleton]

/-- **`for_each_line` reads the log.** -/
theorem reads_entriesOf (hjson : json.Lawful IsRecord) : Reads json (entriesOf json) where
  nil := by simp [entriesOf, linesOf, Utf8.decodeLossy, Utf8.decodeFrom, trim]
  newline := by
    intro bytes rest
    unfold entriesOf linesOf
    rw [List.splitOn_append_cons_self, List.map_append, List.filter_append, List.filterMap_append]
  whole := by
    intro seq record hfits
    rw [entriesOf_line (newline_not_mem_line hjson), Utf8.decodeLossy_encode, trim_encode hjson,
      decodeLine_encode hjson hfits, if_neg]
    · rfl
    · obtain ⟨body, hbody⟩ := encode_shape hjson seq record
      simp [hbody]
  cut := by
    intro seq record bytes hcut hne
    obtain ⟨-, -, -, -, hnewline⟩ := cut_cases hjson hcut hne
    rw [entriesOf_line hnewline, (decodeLine_cut_bytes hjson hcut hne).2]
    split_ifs <;> rfl

/-- A line ending separates what `read_lines` finds, whatever is in the lines. -/
theorem readEntries_newline (bytes rest : List UInt8) :
    readEntries json (bytes ++ 10 :: rest) = readEntries json bytes ++ readEntries json rest := by
  unfold readEntries readLines
  rw [Utf8.decodeLossy_newline, List.splitOn_append_cons_self, List.filter_append, List.filterMap_append]

theorem readEntries_nil : readEntries json [] = [] := by
  simp [readEntries, readLines, Utf8.decodeLossy, Utf8.decodeFrom, isBlankLine]

theorem readEntries_line (hnewline : '\n' ∉ Utf8.decodeLossy bytes) :
    readEntries json bytes = if isBlankLine (Utf8.decodeLossy bytes) = true then []
      else (decodeLine json (Utf8.decodeLossy bytes)).toList := by
  unfold readEntries readLines
  rw [List.splitOn_eq_singleton hnewline]
  split_ifs with h
  · simp [h]
  · rw [List.filter_singleton, Bool.eq_false_iff.mpr h, Bool.not_false, cond_true, filterMap_singleton]

/-- **`read_lines` reads the log.** -/
theorem reads_readEntries (hjson : json.Lawful IsRecord) : Reads json (readEntries json) where
  nil := readEntries_nil
  newline := readEntries_newline
  whole := by
    intro seq record hfits
    have hread := Utf8.decodeLossy_encode (encode json seq record)
    rw [readEntries_line (by rw [hread]; exact newline_encode hjson), hread, decodeLine_encode hjson hfits, if_neg]
    · rfl
    · obtain ⟨body, hbody⟩ := encode_shape hjson seq record
      simp [hbody, isBlankLine, isWhitespace_brace.1]
  cut := by
    intro seq record bytes hcut hne
    obtain ⟨before, hbefore, -, hread, -⟩ := cut_cases hjson hcut hne
    have hnewline : '\n' ∉ Utf8.decodeLossy bytes := by
      have hline : '\n' ∉ before := fun hmem => newline_encode hjson (hbefore.subset hmem)
      obtain hread | hread := hread
      · rwa [hread]
      · rw [hread, List.mem_append, List.mem_singleton]
        rintro (hmem | hmem)
        · exact hline hmem
        · exact absurd hmem (by decide)
    rw [readEntries_line hnewline, (decodeLine_cut_bytes hjson hcut hne).1]
    split_ifs <;> rfl

end Lines

/-! ### The set of files -/

/-- The log's files, each with its index, oldest first. The active file is index 0. -/
abbrev Files := List (ℕ × List UInt8)

/-- No two files have one index, and the older has the larger. -/
def Files.InOrder (files : Files) : Prop := files.Pairwise fun older newer => newer.1 < older.1

/-- `fs::rename`. What had the new index is gone. -/
def renameFile (files : Files) (index target : ℕ) : Files :=
  (files.filter fun file => decide (file.1 ≠ target)).map fun file => if file.1 = index then (target, file.2) else file

def removeFile (files : Files) (index : ℕ) : Files := files.filter fun file => decide (file.1 ≠ index)

/-- The loop of `rotate` over these indexes. -/
def rotateOver (keep : ℕ) : List ℕ → Files → Files
  | [], files => files
  | index :: rest, files =>
    rotateOver keep rest (if index + 1 > keep then removeFile files index else renameFile files index (index + 1))

/-- `rotate`, stopped after `done` of the files. -/
def rotateFiles (keep done : ℕ) (files : Files) : Files := rotateOver keep ((files.map Prod.fst).take done) files

/-- The files that `rotateFiles` removes. -/
def removedFiles (keep done : ℕ) (files : Files) : Files :=
  (files.take done).filter fun file => decide (file.1 + 1 > keep)

/-- Where one file goes. -/
def moved (keep : ℕ) (file : ℕ × List UInt8) : Option (ℕ × List UInt8) :=
  if file.1 + 1 > keep then none else some (file.1 + 1, file.2)

/-- Open the active file, creating it if it is not there. -/
def touchActive (files : Files) : Files := if files.any fun file => file.1 == 0 then files else files ++ [(0, [])]

def activeBytes (files : Files) : List UInt8 := (files.lookup 0).getD []

/-- Write at the end of the active file. -/
def writeActive (files : Files) (bytes : List UInt8) : Files :=
  files.map fun file => if file.1 = 0 then (0, file.2 ++ bytes) else file

section Files
variable {files older rest : Files} {keep done : ℕ} {bytes more : List UInt8} {file : ℕ × List UInt8}

theorem moved_eq_none (h : file.1 + 1 > keep) : moved keep file = none := if_pos h

theorem moved_eq_some (h : ¬ file.1 + 1 > keep) : moved keep file = some (file.1 + 1, file.2) := if_neg h

theorem removeFile_append (done : Files) (hdone : ∀ f ∈ done, file.1 + 1 < f.1)
    (hrest : ∀ f ∈ rest, f.1 < file.1) : removeFile (done ++ file :: rest) file.1 = done ++ rest := by
  unfold removeFile
  rw [List.filter_append, List.filter_cons_of_neg (by simp),
    List.filter_eq_self.mpr fun f hf => decide_eq_true (by have := hdone f hf; omega),
    List.filter_eq_self.mpr fun f hf => decide_eq_true (hrest f hf).ne]

theorem renameFile_append (done : Files) (hdone : ∀ f ∈ done, file.1 + 1 < f.1)
    (hrest : ∀ f ∈ rest, f.1 < file.1) :
    renameFile (done ++ file :: rest) file.1 (file.1 + 1) = done ++ (file.1 + 1, file.2) :: rest := by
  have hfilter : (done ++ file :: rest).filter (fun f => decide (f.1 ≠ file.1 + 1)) = done ++ file :: rest := by
    refine List.filter_eq_self.mpr fun f hf => decide_eq_true ?_
    rcases List.mem_append.mp hf with hf | hf
    · exact (hdone f hf).ne'
    · rcases List.mem_cons.mp hf with rfl | hf
      · omega
      · have := hrest f hf
        omega
  have hsame : ∀ list : Files, (∀ f ∈ list, f.1 ≠ file.1) →
      list.map (fun f => if f.1 = file.1 then (file.1 + 1, f.2) else f) = list := fun list hne =>
    (List.map_congr_left fun f hf => if_neg (hne f hf)).trans (List.map_id _)
  unfold renameFile
  rw [hfilter, List.map_append, List.map_cons, if_pos rfl,
    hsame done fun f hf => by have := hdone f hf; omega, hsame rest fun f hf => (hrest f hf).ne]

/-- The loop never moves a file over another. -/
theorem rotateOver_append (keep : ℕ) (done : Files) (todo : Files) (count : ℕ) (horder : todo.InOrder)
    (hdone : ∀ f ∈ done, ∀ g ∈ todo, g.1 + 1 < f.1) :
    rotateOver keep ((todo.map Prod.fst).take count) (done ++ todo) =
      done ++ ((todo.take count).filterMap (moved keep) ++ todo.drop count) := by
  induction todo generalizing done count with
  | nil => simp [rotateOver]
  | cons file rest ih =>
    cases count with
    | zero => simp [rotateOver]
    | succ count =>
      obtain ⟨hrest, hordered⟩ := List.pairwise_cons.mp horder
      have hfirst : ∀ f ∈ done, file.1 + 1 < f.1 := fun f hf => hdone f hf file (by simp)
      have hlater : ∀ f ∈ done, ∀ g ∈ rest, g.1 + 1 < f.1 := fun f hf g hg => hdone f hf g (by simp [hg])
      rw [List.map_cons, List.take_succ_cons, rotateOver, List.take_succ_cons, List.drop_succ_cons]
      by_cases hkeep : file.1 + 1 > keep
      · rw [if_pos hkeep, removeFile_append done hfirst hrest, ih done count hordered hlater,
          List.filterMap_cons_none (moved_eq_none hkeep)]
      · rw [if_neg hkeep, renameFile_append done hfirst hrest, List.append_cons, ih _ count hordered,
          List.filterMap_cons_some (moved_eq_some hkeep), List.append_assoc]
        · rfl
        · intro f hf g hg
          rcases List.mem_append.mp hf with hf | hf
          · exact hlater f hf g hg
          · rw [List.mem_singleton.mp hf]
            exact Nat.succ_lt_succ (hrest g hg)

theorem rotateFiles_eq (horder : files.InOrder) :
    rotateFiles keep done files = (files.take done).filterMap (moved keep) ++ files.drop done := by
  have h := rotateOver_append keep [] files done horder (by simp)
  rwa [List.nil_append, List.nil_append] at h

/-- **A rotation removes oldest files** and changes the content of none. -/
theorem removedFiles_rotateFiles (keep done : ℕ) (horder : files.InOrder) :
    (removedFiles keep done files).map Prod.snd ++ (rotateFiles keep done files).map Prod.snd =
      files.map Prod.snd := by
  rw [rotateFiles_eq horder]
  unfold removedFiles
  induction files generalizing done with
  | nil => simp
  | cons file rest ih =>
    cases done with
    | zero => simp
    | succ done =>
      obtain ⟨hrest, hordered⟩ := List.pairwise_cons.mp horder
      have ih := @ih done hordered
      rw [List.take_succ_cons, List.drop_succ_cons]
      by_cases hkeep : file.1 + 1 > keep
      · have hremoved : decide (file.1 + 1 > keep) = true := decide_eq_true hkeep
        rw [List.filter_cons, if_pos hremoved, List.filterMap_cons_none (moved_eq_none hkeep), List.map_cons,
          List.cons_append, ih, List.map_cons]
      · -- every later file is newer, so none of them is removed
        have hnone : (rest.take done).filter (fun file => decide (file.1 + 1 > keep)) = [] := by
          refine List.filter_eq_nil_iff.mpr fun f hf => ?_
          have := hrest f (List.mem_of_mem_take hf)
          simp only [decide_eq_true_eq]
          omega
        rw [hnone, List.map_nil, List.nil_append] at ih
        have hkept : ¬ decide (file.1 + 1 > keep) = true := by simpa using hkeep
        rw [List.filter_cons, if_neg hkept, hnone, List.filterMap_cons_some (moved_eq_some hkeep),
          List.cons_append, List.map_cons, ih]
        rfl

theorem mem_moved (h : file ∈ (files.take done).filterMap (moved keep)) :
    ∃ f ∈ files.take done, file.1 = f.1 + 1 := by
  obtain ⟨f, hf, hmoved⟩ := List.mem_filterMap.mp h
  unfold moved at hmoved
  split_ifs at hmoved
  exact ⟨f, hf, by rw [← Option.some.inj hmoved]⟩

theorem inOrder_rotateFiles (horder : files.InOrder) : (rotateFiles keep done files).InOrder := by
  rw [rotateFiles_eq horder]
  have hsplit := horder
  rw [← List.take_append_drop done files] at hsplit
  obtain ⟨htake, hdrop, hacross⟩ := List.pairwise_append.mp hsplit
  refine List.pairwise_append.mpr ⟨?_, hdrop, ?_⟩
  · refine List.Pairwise.filterMap _ ?_ htake
    intro f g hlt f' hf' g' hg'
    unfold moved at hf' hg'
    split_ifs at hf' hg'
    rw [← Option.some.inj hf', ← Option.some.inj hg']
    exact Nat.succ_lt_succ hlt
  · intro f hf g hg
    obtain ⟨f', hf', heq⟩ := mem_moved hf
    have := hacross f' hf' g hg
    omega

/-- The active file is the last, if it is there. -/
theorem inOrder_cases (horder : files.InOrder) :
    (∃ older bytes, files = older ++ [(0, bytes)] ∧ ∀ f ∈ older, 0 < f.1) ∨ ∀ f ∈ files, 0 < f.1 := by
  rcases List.eq_nil_or_concat' files with rfl | ⟨older, file, rfl⟩
  · exact .inr (by simp)
  · obtain ⟨-, -, hlast⟩ := List.pairwise_append.mp horder
    have holder : ∀ f ∈ older, 0 < f.1 := fun f hf => Nat.zero_lt_of_lt (hlast f hf file (by simp))
    by_cases hactive : file.1 = 0
    · refine .inl ⟨older, file.2, ?_, holder⟩
      rw [← hactive]
    · refine .inr fun f hf => ?_
      rcases List.mem_append.mp hf with hf | hf
      · exact holder f hf
      · rw [List.mem_singleton.mp hf]
        exact Nat.pos_of_ne_zero hactive

theorem touchActive_of_active (older : Files) (bytes : List UInt8) :
    touchActive (older ++ [(0, bytes)]) = older ++ [(0, bytes)] := if_pos (by simp)

theorem touchActive_of_none (hnone : ∀ f ∈ files, 0 < f.1) : touchActive files = files ++ [(0, [])] := by
  refine if_neg ?_
  rw [List.any_eq_true]
  rintro ⟨f, hf, hzero⟩
  exact (hnone f hf).ne' (eq_of_beq hzero)

theorem activeBytes_concat (holder : ∀ f ∈ older, 0 < f.1) : activeBytes (older ++ [(0, bytes)]) = bytes := by
  unfold activeBytes
  induction older with
  | nil => rfl
  | cons file older ih =>
    have hne : (0 == file.1) = false := beq_false_of_ne (holder file (by simp)).ne
    rw [List.cons_append, List.lookup_cons, hne]
    exact ih fun f hf => holder f (by simp [hf])

theorem writeActive_concat (holder : ∀ f ∈ older, 0 < f.1) :
    writeActive (older ++ [(0, bytes)]) more = older ++ [(0, bytes ++ more)] := by
  unfold writeActive
  rw [List.map_append, List.map_singleton, if_pos rfl]
  congr 1
  exact (List.map_congr_left fun f hf => if_neg (holder f hf).ne').trans (List.map_id _)

theorem inOrder_concat (horder : older.InOrder) (holder : ∀ f ∈ older, 0 < f.1) :
    Files.InOrder (older ++ [(0, bytes)]) :=
  List.pairwise_append.mpr ⟨horder, by simp, fun f hf g hg => by rw [List.mem_singleton.mp hg]; exact holder f hf⟩

end Files

end DenonAvr.Infrastructure
