import Mathlib.Tactic
import Mathlib.Data.List.Chain

/-!
# Readers of streams of lines

A reader takes one symbol after another, may give an item for it, and may fail. A chunk is read by reading its symbols
(`readAll`), so how a stream is cut into chunks does not show (`readChunks_eq`).

A `LineReader` is one that is made of lines: it adds symbols to a line, and gives what it gives at the end of one. A line
ends with CR, LF, or CR and LF, and the reader must remember a CR to know an LF behind it for the same ending. Whatever
the endings are, it reads the lines (`readAll_render`), as long as no CR is followed by an LF that is meant to end an
empty line of its own. Every stream is such a sequence of lines, in one way (`render_cut`).
-/

namespace DenonAvr.Library

section Reader
variable {σ α ε β : Type*} (step : σ → α → Except ε (σ × Option β))

/-- Read one symbol after another. -/
def readAll (s : σ) : List α → Except ε (σ × List β)
  | [] => .ok (s, [])
  | a :: rest => (step s a).bind fun r => (readAll r.1 rest).map fun t => (t.1, r.2.toList ++ t.2)

/-- Read one chunk after another. -/
def readChunks (s : σ) : List (List α) → Except ε (σ × List β)
  | [] => .ok (s, [])
  | chunk :: rest => (readAll step s chunk).bind fun r => (readChunks r.1 rest).map fun t => (t.1, r.2 ++ t.2)

theorem readAll_nil (s : σ) : readAll step s [] = .ok (s, []) := rfl

theorem readAll_cons (s : σ) (a : α) (rest : List α) :
    readAll step s (a :: rest) = (step s a).bind fun r => (readAll step r.1 rest).map fun t => (t.1, r.2.toList ++ t.2) :=
  rfl

theorem readAll_append (s : σ) (xs ys : List α) :
    readAll step s (xs ++ ys) =
      (readAll step s xs).bind fun r => (readAll step r.1 ys).map fun t => (t.1, r.2 ++ t.2) := by
  induction xs generalizing s with
  | nil =>
    rw [List.nil_append, readAll_nil]
    cases h : readAll step s ys <;> simp [Except.bind, Except.map, h]
  | cons a xs ih =>
    rw [List.cons_append, readAll_cons, readAll_cons]
    cases hstep : step s a with
    | error e => rfl
    | ok r =>
      simp only [Except.bind, ih]
      cases hxs : readAll step r.1 xs with
      | error e => rfl
      | ok t =>
        simp only [Except.map]
        cases hys : readAll step t.1 ys <;> simp [List.append_assoc]

/-- **How a stream is cut into chunks does not show.** -/
theorem readChunks_eq (s : σ) (chunks : List (List α)) : readChunks step s chunks = readAll step s chunks.flatten := by
  induction chunks generalizing s with
  | nil => rfl
  | cons chunk rest ih =>
    rw [List.flatten_cons, readAll_append]
    show (readAll step s chunk).bind _ = _
    congr 1
    funext r
    rw [ih]

/-- Two readers whose steps agree, but for what the first remembers besides, read alike. -/
theorem readAll_map {τ : Type*} {step' : τ → α → Except ε (τ × Option β)} (f : σ → τ)
    (h : ∀ s a, (step s a).map (fun r => (f r.1, r.2)) = step' (f s) a) (s : σ) (xs : List α) :
    (readAll step s xs).map (fun r => (f r.1, r.2)) = readAll step' (f s) xs := by
  induction xs generalizing s with
  | nil => rfl
  | cons a xs ih =>
    rw [readAll_cons, readAll_cons, ← h]
    cases step s a with
    | error e => rfl
    | ok r =>
      simp only [Except.map, Except.bind]
      rw [← ih]
      cases readAll step r.1 xs <;> rfl

end Reader

/-! ### Line endings -/

def crByte : UInt8 := 13
def lfByte : UInt8 := 10

inductive Ending
  | cr | lf | crlf
deriving DecidableEq, Repr

def Ending.bytes : Ending → List UInt8
  | .cr => [crByte]
  | .lf => [lfByte]
  | .crlf => [crByte, lfByte]

/-- A line and how it ends. -/
abbrev EndedLine := List UInt8 × Ending

/-- Lines one after another, and what stands behind the last of them. -/
def render : List EndedLine → List UInt8 → List UInt8
  | [], tail => tail
  | (line, ending) :: rest, tail => line ++ ending.bytes ++ render rest tail

/-- Bytes within one line. -/
def Plain (line : List UInt8) : Prop := ∀ b ∈ line, b ≠ crByte ∧ b ≠ lfByte

/-- The two endings stay two when they are written: not a CR and, behind nothing, an LF. -/
def ApartFrom (first second : EndedLine) : Prop := ¬ (first.2 = .cr ∧ second.1 = [] ∧ second.2 = .lf)

instance (first second : EndedLine) : Decidable (ApartFrom first second) := inferInstanceAs (Decidable (¬ _))

/-- Any two neighbouring endings stay two. -/
def Apart (lines : List EndedLine) : Prop := lines.IsChain ApartFrom

instance (lines : List EndedLine) : Decidable (Apart lines) := inferInstanceAs (Decidable (List.IsChain _ _))

/-- The same lines with other endings. -/
def respell (ending : ℕ → Ending) (lines : List EndedLine) : List EndedLine :=
  lines.mapIdx fun i line => (line.1, ending i)

theorem respell_lines (ending : ℕ → Ending) (lines : List EndedLine) :
    (respell ending lines).map Prod.fst = lines.map Prod.fst := by
  unfold respell
  apply List.ext_getElem
  · simp
  · intro i h h'
    simp

/-- Endings of one kind stay as many as they are. -/
theorem apart_respell_const (ending : Ending) (lines : List EndedLine) : Apart (respell (fun _ => ending) lines) := by
  have hkind : ∀ ended ∈ respell (fun _ => ending) lines, ended.2 = ending := by
    intro ended hmem
    obtain ⟨i, hi, rfl⟩ := List.mem_mapIdx.mp hmem
    rfl
  apply List.Pairwise.isChain
  rw [List.pairwise_iff_forall_sublist]
  intro first second hsub hbad
  have hfirst := hkind first (hsub.subset (by simp))
  have hsecond := hkind second (hsub.subset (by simp))
  rw [hbad.1] at hfirst
  rw [hbad.2.2, ← hfirst] at hsecond
  cases hsecond

/-! ### Reading lines -/

/-- A reader made of lines. -/
structure LineReader (σ ε β : Type*) where
  add : σ → UInt8 → Except ε σ
  close : σ → Except ε (σ × Option β)

namespace LineReader

variable {σ ε β : Type*} (R : LineReader σ ε β)

/-- One byte, where the flag says that the last one was a CR. -/
def step (s : σ × Bool) (b : UInt8) : Except ε ((σ × Bool) × Option β) :=
  if b = lfByte ∧ s.2 = true then .ok ((s.1, false), none)
  else if b = lfByte ∨ b = crByte then
    (R.close s.1).map fun r => ((r.1, b == crByte), r.2)
  else (R.add s.1 b).map fun s' => ((s', false), none)

/-- The bytes of a line. -/
def addAll (s : σ) : List UInt8 → Except ε σ
  | [] => .ok s
  | b :: rest => (R.add s b).bind fun s' => addAll s' rest

/-- Lines one after another, and the beginning of another. -/
def readLines (s : σ) : List (List UInt8) → List UInt8 → Except ε (σ × List β)
  | [], tail => (R.addAll s tail).map fun s' => (s', [])
  | line :: rest, tail => (R.addAll s line).bind fun s' => (R.close s').bind fun r =>
      (readLines r.1 rest tail).map fun t => (t.1, r.2.toList ++ t.2)

/-- What is left when the flag is forgotten. -/
def unflagged (r : Except ε ((σ × Bool) × List β)) : Except ε (σ × List β) := r.map fun t => (t.1.1, t.2)

variable {R} {s : σ} {flag : Bool} {line tail : List UInt8} {lines : List EndedLine}

theorem step_plain {b : UInt8} (h : b ≠ crByte ∧ b ≠ lfByte) :
    R.step (s, flag) b = (R.add s b).map fun s' => ((s', false), none) := by
  unfold step
  rw [if_neg (fun hb => h.2 hb.1), if_neg (fun hb => hb.elim h.2 h.1)]

/-- Within a line the reader gives nothing. -/
theorem readAll_plain (h : Plain line) :
    readAll R.step (s, flag) line = (R.addAll s line).map fun s' => ((s', if line = [] then flag else false), []) := by
  induction line generalizing s flag with
  | nil => rfl
  | cons b rest ih =>
    rw [readAll_cons, step_plain (h b List.mem_cons_self), addAll]
    cases hadd : R.add s b with
    | error e => rfl
    | ok s' =>
      simp only [Except.map, Except.bind]
      rw [ih fun x hx => h x (List.mem_cons_of_mem _ hx)]
      cases R.addAll s' rest <;> simp [Except.map]

theorem step_cr : R.step (s, flag) crByte = (R.close s).map fun r => ((r.1, true), r.2) := by
  unfold step
  rw [if_neg (fun h => absurd h.1 (by decide)), if_pos (.inr rfl)]
  rfl

theorem step_lf : R.step (s, false) lfByte = (R.close s).map fun r => ((r.1, false), r.2) := by
  unfold step
  rw [if_neg (fun h => Bool.false_ne_true h.2), if_pos (.inl rfl)]
  rfl

theorem step_lf_after : R.step (s, true) lfByte = .ok ((s, false), none) := if_pos ⟨rfl, rfl⟩

/-- An ending closes the line once, and leaves the flag up when it is a CR. -/
theorem readAll_ending {ending : Ending} (h : ¬ (flag = true ∧ ending = .lf)) :
    readAll R.step (s, flag) ending.bytes = (R.close s).map fun r => ((r.1, ending == .cr), r.2.toList) := by
  cases ending with
  | cr =>
    show readAll R.step (s, flag) [crByte] = _
    rw [readAll_cons, step_cr]
    cases R.close s <;> simp [Except.bind, Except.map, readAll_nil]
  | lf =>
    have hdown : flag = false := by
      cases flag with
      | false => rfl
      | true => exact absurd ⟨rfl, rfl⟩ h
    subst hdown
    show readAll R.step (s, false) [lfByte] = _
    rw [readAll_cons, step_lf]
    cases R.close s <;> simp [Except.bind, Except.map, readAll_nil]
  | crlf =>
    show readAll R.step (s, flag) [crByte, lfByte] = _
    rw [readAll_cons, step_cr]
    cases R.close s with
    | error e => rfl
    | ok r =>
      simp only [Except.map, Except.bind, readAll_cons, step_lf_after, readAll_nil]
      simp

theorem readLines_nil : R.readLines s [] tail = (R.addAll s tail).map fun s' => (s', []) := rfl

theorem readLines_cons {rest : List (List UInt8)} :
    R.readLines s (line :: rest) tail = (R.addAll s line).bind fun s' => (R.close s').bind fun r =>
      (R.readLines r.1 rest tail).map fun t => (t.1, r.2.toList ++ t.2) := rfl

/-- **The endings do not show**: what is read is the lines. -/
theorem readAll_render (hplain : ∀ ended ∈ lines, Plain ended.1) (htail : Plain tail) (hapart : Apart lines)
    (hflag : flag = true → ∀ ended ∈ lines.head?, ¬ (ended.1 = [] ∧ ended.2 = .lf)) :
    unflagged (readAll R.step (s, flag) (render lines tail)) = R.readLines s (lines.map Prod.fst) tail := by
  induction lines generalizing s flag with
  | nil =>
    show unflagged (readAll R.step (s, flag) tail) = _
    rw [readAll_plain htail, List.map_nil, readLines_nil]
    cases R.addAll s tail <;> rfl
  | cons ended rest ih =>
    obtain ⟨line, ending⟩ := ended
    show unflagged (readAll R.step (s, flag) (line ++ ending.bytes ++ render rest tail)) = _
    rw [List.map_cons, readLines_cons, List.append_assoc, readAll_append,
      readAll_plain (hplain _ List.mem_cons_self)]
    cases R.addAll s line with
    | error e => rfl
    | ok s' =>
      have hending : ¬ ((if line = [] then flag else false) = true ∧ ending = .lf) := by
        rintro ⟨hup, hlf⟩
        split_ifs at hup with hempty
        exact hflag hup (line, ending) rfl ⟨hempty, hlf⟩
      simp only [Except.map, Except.bind]
      rw [readAll_append, readAll_ending hending]
      cases R.close s' with
      | error e => rfl
      | ok r =>
        have hnext : (ending == Ending.cr) = true → ∀ next ∈ rest.head?, ¬ (next.1 = [] ∧ next.2 = .lf) := by
          intro hcr next hnext hbad
          exact hapart.rel_head? hnext ⟨beq_iff_eq.mp hcr, hbad⟩
        have hrest := ih (s := r.1) (fun x hx => hplain x (List.mem_cons_of_mem _ hx)) hapart.tail hnext
        simp only [Except.map, Except.bind, ← hrest]
        cases readAll R.step (r.1, ending == Ending.cr) (render rest tail) <;> simp [unflagged, Except.map]

end LineReader

/-! ### The lines of a stream -/

/-- One more byte at the front of the first line. -/
def before (b : UInt8) : List EndedLine × List UInt8 → List EndedLine × List UInt8
  | ([], tail) => ([], b :: tail)
  | ((line, ending) :: rest, tail) => ((b :: line, ending) :: rest, tail)

/-- One more line, which is empty. -/
def emptyLine (ending : Ending) (lines : List EndedLine × List UInt8) : List EndedLine × List UInt8 :=
  (([], ending) :: lines.1, lines.2)

/-- The lines of a stream with their endings, and what stands behind the last of them. -/
def cut : List UInt8 → List EndedLine × List UInt8
  | [] => ([], [])
  | [b] =>
    if b = crByte then emptyLine .cr ([], []) else if b = lfByte then emptyLine .lf ([], []) else ([], [b])
  | b :: c :: rest =>
    if b = crByte then
      if c = lfByte then emptyLine .crlf (cut rest) else emptyLine .cr (cut (c :: rest))
    else if b = lfByte then emptyLine .lf (cut (c :: rest))
    else before b (cut (c :: rest))

section Cut
variable {b : UInt8} {rest : List UInt8}

theorem cut_crlf : cut (crByte :: lfByte :: rest) = emptyLine .crlf (cut rest) := by
  rw [cut, if_pos rfl, if_pos rfl]

theorem cut_cr (h : rest.head? ≠ some lfByte) : cut (crByte :: rest) = emptyLine .cr (cut rest) := by
  cases rest with
  | nil => rfl
  | cons c rest => rw [cut, if_pos rfl, if_neg (fun hc => h (by rw [hc]; rfl))]

theorem cut_lf : cut (lfByte :: rest) = emptyLine .lf (cut rest) := by
  cases rest with
  | nil => rfl
  | cons c rest => rw [cut, if_neg (by decide), if_pos rfl]

theorem cut_plain (h : b ≠ crByte ∧ b ≠ lfByte) : cut (b :: rest) = before b (cut rest) := by
  cases rest with
  | nil => simp [cut, h.1, h.2, before]
  | cons c rest => rw [cut, if_neg h.1, if_neg h.2]

/-- A stream begins with one of the three endings or with a byte of a line. -/
theorem cut_induction {P : List UInt8 → Prop} (nil : P []) (crlf : ∀ rest, P rest → P (crByte :: lfByte :: rest))
    (cr : ∀ rest, rest.head? ≠ some lfByte → P rest → P (crByte :: rest)) (lf : ∀ rest, P rest → P (lfByte :: rest))
    (plain : ∀ b rest, b ≠ crByte ∧ b ≠ lfByte → P rest → P (b :: rest)) (stream : List UInt8) : P stream := by
  induction stream using cut.induct with
  | case1 => exact nil
  | case2 => exact cr [] (by simp) nil
  | case3 => exact lf [] nil
  | case4 b hcr hlf => exact plain b [] ⟨hcr, hlf⟩ nil
  | case5 rest ih => exact crlf rest ih
  | case6 c rest hlf ih => exact cr (c :: rest) (by simpa using hlf) ih
  | case7 c rest _ ih => exact lf (c :: rest) ih
  | case8 b c rest hcr hlf ih => exact plain b (c :: rest) ⟨hcr, hlf⟩ ih

theorem render_before (b : UInt8) (lines : List EndedLine × List UInt8) :
    render (before b lines).1 (before b lines).2 = b :: render lines.1 lines.2 := by
  obtain ⟨_ | ⟨ended, rest⟩, tail⟩ := lines <;> rfl

theorem render_emptyLine (ending : Ending) (lines : List EndedLine × List UInt8) :
    render (emptyLine ending lines).1 (emptyLine ending lines).2 = ending.bytes ++ render lines.1 lines.2 := rfl

/-- The lines of a stream, written down again, are the stream. -/
theorem render_cut (stream : List UInt8) : render (cut stream).1 (cut stream).2 = stream := by
  induction stream using cut_induction with
  | nil => rfl
  | crlf rest ih =>
    rw [cut_crlf, render_emptyLine, ih]
    rfl
  | cr rest h ih =>
    rw [cut_cr h, render_emptyLine, ih]
    rfl
  | lf rest ih =>
    rw [cut_lf, render_emptyLine, ih]
    rfl
  | plain b rest h ih => rw [cut_plain h, render_before, ih]

/-- What a stream is cut into has no ending inside. -/
theorem plain_cut (stream : List UInt8) : (∀ ended ∈ (cut stream).1, Plain ended.1) ∧ Plain (cut stream).2 := by
  have hempty : ∀ ending rest, ((∀ ended ∈ (cut rest).1, Plain ended.1) ∧ Plain (cut rest).2) →
      (∀ ended ∈ (emptyLine ending (cut rest)).1, Plain ended.1) ∧ Plain (emptyLine ending (cut rest)).2 := by
    rintro ending rest ⟨hlines, htail⟩
    refine ⟨fun ended hmem => ?_, htail⟩
    rcases List.mem_cons.mp hmem with rfl | hmem
    · intro x hx
      cases hx
    · exact hlines ended hmem
  induction stream using cut_induction with
  | nil => exact ⟨fun ended h => (nomatch h), fun x h => (nomatch h)⟩
  | crlf rest ih =>
    rw [cut_crlf]
    exact hempty .crlf rest ih
  | cr rest h ih =>
    rw [cut_cr h]
    exact hempty .cr rest ih
  | lf rest ih =>
    rw [cut_lf]
    exact hempty .lf rest ih
  | plain b rest h ih =>
    rw [cut_plain h]
    generalize cut rest = p at ih
    obtain ⟨lines, tail⟩ := p
    cases lines with
    | nil =>
      refine ⟨fun ended hmem => (nomatch hmem), fun x hx => ?_⟩
      rcases List.mem_cons.mp hx with rfl | hx
      · exact h
      · exact ih.2 x hx
    | cons first more =>
      refine ⟨fun ended hmem => ?_, ih.2⟩
      rcases List.mem_cons.mp hmem with rfl | hmem
      · intro x hx
        rcases List.mem_cons.mp hx with rfl | hx
        · exact h
        · exact ih.1 first List.mem_cons_self x hx
      · exact ih.1 ended (List.mem_cons_of_mem _ hmem)

/-- A stream whose first line is empty and ends with an LF begins with it. -/
theorem head?_of_cut {ended : EndedLine} (h : ended ∈ (cut rest).1.head?) (hempty : ended.1 = [] ∧ ended.2 = .lf) :
    rest.head? = some lfByte := by
  have hrender := render_cut rest
  cases hlines : (cut rest).1 with
  | nil =>
    rw [hlines] at h
    cases h
  | cons first more =>
    rw [hlines] at h hrender
    obtain rfl : first = ended := by simpa using h
    rw [← hrender]
    obtain ⟨line, ending⟩ := first
    obtain ⟨rfl, rfl⟩ := hempty
    rfl

/-- The endings of a stream are as many as they seem. -/
theorem apart_cut (stream : List UInt8) : Apart (cut stream).1 := by
  induction stream using cut_induction with
  | nil => exact .nil
  | crlf rest ih =>
    rw [cut_crlf]
    exact ih.cons fun next _ hbad => by cases hbad.1
  | cr rest h ih =>
    rw [cut_cr h]
    exact ih.cons fun next hnext hbad => h (head?_of_cut hnext hbad.2)
  | lf rest ih =>
    rw [cut_lf]
    exact ih.cons fun next _ hbad => by cases hbad.1
  | plain b rest h ih =>
    rw [cut_plain h]
    generalize cut rest = p at ih
    obtain ⟨lines, tail⟩ := p
    cases lines with
    | nil => exact .nil
    | cons first more =>
      obtain ⟨hfirst, hmore⟩ := List.isChain_cons.mp ih
      refine List.isChain_cons.mpr ⟨fun next hnext => ?_, hmore⟩
      exact hfirst next hnext

end Cut

end DenonAvr.Library
