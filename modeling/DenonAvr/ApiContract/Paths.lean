import DenonAvr.ApiContract.Events
import DenonAvr.ApiContract.State
import DenonAvr.Application.Audit
import DenonAvr.Library.Percent
import Mathlib.Data.List.TakeWhile

/-!
# Request paths and the route table

The paths a client builds, and the table the server's router is made from. An id in a path is percent-encoded, so it is
one segment whatever it says, and of the rows whose patterns a path fits the router takes the one with static segments
where others have a parameter. Each path is then for the row it was built for, and the segment it captures reads back as
the id (`client_paths`).
-/

namespace DenonAvr.ApiContract

open Domain Application Library

/-! ### Segments -/

def utf8Bytes (text : String) : List UInt8 := text.toUTF8.data.toList

/-- The unreserved characters. -/
def unreserved (b : UInt8) : Bool :=
  let n := b.toNat
  (48 ≤ n && n ≤ 57) || (65 ≤ n && n ≤ 90) || (97 ≤ n && n ≤ 122) || n == 45 || n == 46 || n == 95 || n == 126

def encodeSegment (text : String) : String := String.ofList (Percent.encode unreserved (utf8Bytes text))

/-- What the router's extractor makes of a captured segment: it is percent-decoded, and has to be text then. -/
def decodeSegment (segment : String) : Option String := fromUtf8 (Percent.decode segment.toList)

/-- `u64::to_string`. -/
def decimal (n : UInt64) : String := toString n.toNat

/-- `str::parse::<u64>`. -/
def parseU64 (text : String) : Option UInt64 :=
  let digits := match text.toList with
    | '+' :: digits => digits
    | digits => digits
  if digits.isEmpty || !digits.all Char.isDigit then none
  else
    let n := Nat.ofDigitChars 10 digits 0
    if h : n < 2 ^ 64 then some (UInt64.ofNatLT n h) else none

/-! ### Paths -/

namespace Request

def health : String := "/v1/health"
def receivers : String := "/v1/receivers"

/-- The paths below one receiver. -/
def ofReceiver (receiver : ReceiverId) (rest : String) : String :=
  "/v1/receivers/" ++ encodeSegment receiver.value ++ rest

def state (receiver : ReceiverId) : String := ofReceiver receiver "/state"
def sources (receiver : ReceiverId) : String := ofReceiver receiver "/sources"
def stateEvents (receiver : ReceiverId) : String := ofReceiver receiver "/events"
def operationEvents : String := "/v1/operations/events"
def submit (receiver : ReceiverId) : String := ofReceiver receiver "/operations"
def dryRun (receiver : ReceiverId) : String := ofReceiver receiver "/operations/dry-run"

def operation (id : UInt64) (waitMs : Option UInt64) : String :=
  match waitMs with
  | some wait => "/v1/operations/" ++ decimal id ++ "?wait_ms=" ++ decimal wait
  | none => "/v1/operations/" ++ decimal id

def cancel (id : UInt64) : String := "/v1/operations/" ++ decimal id ++ "/cancel"
def discover : String := "/v1/receivers/discover"
def adHoc : String := "/v1/receivers/ad-hoc"
def config : String := "/v1/config"
def quickSelectNames (receiver : ReceiverId) : String := ofReceiver receiver "/quick-select-names"
def httpInformation (receiver : ReceiverId) : String := ofReceiver receiver "/http-information"
def refresh (receiver : ReceiverId) : String := ofReceiver receiver "/refresh"
def policy : String := "/v1/policy"
def policyReload : String := "/v1/policy/reload"

def audit (limit : UInt64) (cursor : Option UInt64) : String :=
  match cursor with
  | some cursor => "/v1/audit?limit=" ++ decimal limit ++ "&cursor=" ++ decimal cursor
  | none => "/v1/audit?limit=" ++ decimal limit

def tokens : String := "/v1/tokens"
def token (id : String) : String := "/v1/tokens/" ++ encodeSegment id

end Request

/-! ### The table -/

inductive Method
  | get | post | put | delete
deriving DecidableEq, Repr

/-- Who a resource is served to. -/
inductive Audience
  | both | operator
deriving DecidableEq, Repr

inductive RouteId
  | health | receivers | state | sources | stateEvents | operationEvents | submit | dryRun | operation | cancel | discover
  | adHoc | configGet | configPut | quickSelectNames | httpInformation | refresh | policyGet | policyReload | audit
  | tokenIssue | tokenList | tokenRevoke
deriving DecidableEq, Repr

structure Route where
  id : RouteId
  method : Method
  /-- `{id}` is one path segment. -/
  pattern : String
  audience : Audience
deriving DecidableEq

def table : List Route :=
  [⟨.health, .get, "/v1/health", .both⟩,
    ⟨.receivers, .get, "/v1/receivers", .both⟩,
    ⟨.state, .get, "/v1/receivers/{id}/state", .both⟩,
    ⟨.sources, .get, "/v1/receivers/{id}/sources", .both⟩,
    ⟨.stateEvents, .get, "/v1/receivers/{id}/events", .both⟩,
    ⟨.operationEvents, .get, "/v1/operations/events", .both⟩,
    ⟨.submit, .post, "/v1/receivers/{id}/operations", .both⟩,
    ⟨.dryRun, .post, "/v1/receivers/{id}/operations/dry-run", .both⟩,
    ⟨.operation, .get, "/v1/operations/{id}", .both⟩,
    ⟨.cancel, .post, "/v1/operations/{id}/cancel", .both⟩,
    ⟨.discover, .post, "/v1/receivers/discover", .operator⟩,
    ⟨.adHoc, .post, "/v1/receivers/ad-hoc", .operator⟩,
    ⟨.configGet, .get, "/v1/config", .operator⟩,
    ⟨.configPut, .put, "/v1/config", .operator⟩,
    ⟨.quickSelectNames, .get, "/v1/receivers/{id}/quick-select-names", .operator⟩,
    ⟨.httpInformation, .get, "/v1/receivers/{id}/http-information", .operator⟩,
    ⟨.refresh, .post, "/v1/receivers/{id}/refresh", .operator⟩,
    ⟨.policyGet, .get, "/v1/policy", .operator⟩,
    ⟨.policyReload, .post, "/v1/policy/reload", .operator⟩,
    ⟨.audit, .get, "/v1/audit", .operator⟩,
    ⟨.tokenIssue, .post, "/v1/tokens", .operator⟩,
    ⟨.tokenList, .get, "/v1/tokens", .operator⟩,
    ⟨.tokenRevoke, .delete, "/v1/tokens/{id}", .operator⟩]

/-- The rows an endpoint serves. -/
def servedTo (operator : Bool) : List Route := table.filter fun row => operator || row.audience == .both

/-! ### Routing -/

/-- `split('/')`. -/
def splitSlash (text : List Char) : List String := (text.splitOn '/').map String.ofList

/-- The segments of a path, without its query. -/
def segments (path : String) : List String := splitSlash (path.toList.takeWhile (· ≠ '?'))

def isParam (pattern : String) : Bool := pattern.toList.head? == some '{'

/-- Whether the segments of a path are those of a pattern, `{id}` standing for a segment that is not empty. -/
def fitsSegments : List String → List String → Bool
  | [], [] => true
  | p :: ps, q :: qs => ((isParam p && !q.isEmpty) || p == q) && fitsSegments ps qs
  | _, _ => false

def Route.segments (row : Route) : List String := splitSlash row.pattern.toList

/-- Where the two patterns first differ in kind, the first is static. -/
def precedes : List String → List String → Bool
  | p :: ps, q :: qs => if isParam p == isParam q then precedes ps qs else isParam q
  | _, _ => false

/-- The rows a router takes a path for: the pattern is chosen first, then the method. -/
def routed (operator : Bool) (method : Method) (path : String) : List Route :=
  let fitting := (servedTo operator).filter fun row => fitsSegments row.segments (segments path)
  (fitting.filter fun row => fitting.all fun other => !precedes other.segments row.segments).filter
    fun row => row.method == method

/-- The segment a pattern captures of a path. -/
def captured (row : Route) (path : String) : Option String :=
  ((row.segments.zip (segments path)).find? fun p => isParam p.1).map Prod.snd

/-! ### What is encoded -/

theorem fromUtf8_utf8Bytes (text : String) : fromUtf8 (utf8Bytes text) = some text := by
  unfold fromUtf8 utf8Bytes String.fromUTF8?
  have hbytes : (⟨text.toUTF8.data.toList.toArray⟩ : ByteArray) = text.toUTF8 := by simp
  rw [dif_pos (hbytes ▸ text.isValidUTF8)]
  simp [String.fromUTF8]

theorem keeps_unreserved : Percent.Keeps unreserved := by
  intro b hb
  have hlt := UInt8.toNat_lt b
  simp only [unreserved, Bool.or_eq_true, Bool.and_eq_true, decide_eq_true_eq, beq_iff_eq] at hb
  refine ⟨by omega, ?_⟩
  rintro rfl
  revert hb
  decide

/-- **A segment is decoded to what was encoded.** -/
theorem decodeSegment_encodeSegment (text : String) : decodeSegment (encodeSegment text) = some text := by
  unfold decodeSegment encodeSegment
  rw [String.toList_ofList, Percent.decode_encode keeps_unreserved, fromUtf8_utf8Bytes]

theorem encodeSegment_injective : Function.Injective encodeSegment := fun a b h => by
  have hread := decodeSegment_encodeSegment a
  rw [h, decodeSegment_encodeSegment, Option.some.injEq] at hread
  exact hread.symm

/-- The characters that end a segment, or the path. -/
def isDelimiter (c : Char) : Bool := c == '/' || c == '?' || c == '#'

theorem isDelimiter_ofNat_unreserved {b : UInt8} (h : unreserved b = true) :
    isDelimiter (Char.ofNat b.toNat) = false := by
  obtain ⟨hascii, -⟩ := keeps_unreserved b h
  have hkept : ∀ n < 128, unreserved (UInt8.ofNat n) = true → isDelimiter (Char.ofNat n) = false := by decide
  exact hkept b.toNat hascii (by rwa [UInt8.ofNat_toNat])

theorem isDelimiter_hexDigit {n : ℕ} (h : n < 16) : isDelimiter (Percent.hexDigit n) = false := by
  revert n
  decide

/-- A segment does not end itself. -/
theorem isDelimiter_of_mem_encodeSegment {text : String} {c : Char} (h : c ∈ (encodeSegment text).toList) :
    isDelimiter c = false := by
  unfold encodeSegment at h
  rw [String.toList_ofList] at h
  rcases Percent.mem_encode h with ⟨b, hb, rfl⟩ | rfl | ⟨n, hn, rfl⟩
  · exact isDelimiter_ofNat_unreserved hb
  · rfl
  · exact isDelimiter_hexDigit hn

theorem encodeSegment_ne_empty {text : String} (h : text ≠ "") : encodeSegment text ≠ "" := by
  intro hempty
  have hread := decodeSegment_encodeSegment text
  rw [hempty] at hread
  exact h (Option.some.inj hread).symm

/-! ### Numbers in a path -/

theorem toList_decimal (n : UInt64) : (decimal n).toList = Nat.toDigits 10 n.toNat := Nat.toList_repr

theorem isDigit_of_mem_decimal {n : UInt64} {c : Char} (h : c ∈ (decimal n).toList) : c.isDigit = true :=
  Nat.isDigit_of_mem_toDigits (by decide) (by decide) (toList_decimal n ▸ h)

theorem decimal_ne_of_not_digits {n : UInt64} {text : String} (h : text.toList.all Char.isDigit = false) :
    decimal n ≠ text := by
  rintro rfl
  have hall : (decimal n).toList.all Char.isDigit = true := List.all_eq_true.mpr fun _ => isDigit_of_mem_decimal
  rw [h] at hall
  cases hall

theorem decimal_ne_empty (n : UInt64) : decimal n ≠ "" := fun h =>
  Nat.toDigits_ne_nil ((toList_decimal n).symm.trans (congrArg String.toList h))

theorem parseU64_decimal (n : UInt64) : parseU64 (decimal n) = some n := by
  have hdigits : ∀ c ∈ Nat.toDigits 10 n.toNat, c.isDigit = true := fun c hc =>
    isDigit_of_mem_decimal (toList_decimal n ▸ hc)
  unfold parseU64
  rw [toList_decimal]
  split
  · rename_i heq
    exact absurd (hdigits '+' (heq ▸ List.mem_cons_self)) (by decide)
  · rename_i heq
    have hne : Nat.toDigits 10 n.toNat ≠ [] := Nat.toDigits_ne_nil
    rw [if_neg (by simpa [List.isEmpty_iff, hne] using hdigits), Nat.ofDigitChars_ten_toDigits, dif_pos n.toNat_lt]
    simp

theorem isDelimiter_of_isDigit {c : Char} (h : c.isDigit = true) : isDelimiter c = false := by
  unfold isDelimiter
  simp only [Bool.or_eq_false_iff, beq_eq_false_iff_ne]
  refine ⟨⟨?_, ?_⟩, ?_⟩ <;> rintro rfl <;> exact absurd h (by decide)


/-! ### The segments of a path that is filled in -/

/-- What may stand in a place of a path. -/
def FillsSegment (text : String) : Prop := text ≠ "" ∧ ∀ c ∈ text.toList, isDelimiter c = false

theorem fillsSegment_encodeSegment {text : String} (h : text ≠ "") : FillsSegment (encodeSegment text) :=
  ⟨encodeSegment_ne_empty h, fun _ => isDelimiter_of_mem_encodeSegment⟩

theorem fillsSegment_decimal (n : UInt64) : FillsSegment (decimal n) :=
  ⟨decimal_ne_empty n, fun _ hc => isDelimiter_of_isDigit (isDigit_of_mem_decimal hc)⟩

/-- The segments that follow a place. -/
def segmentsBelow (rest : String) : List String :=
  match rest.toList with
  | '/' :: below => splitSlash (below.takeWhile (· ≠ '?'))
  | _ => []

/-- What may follow a place: nothing, or further segments. -/
def followsSegment (rest : String) : Bool :=
  match rest.toList with
  | [] => true
  | c :: _ => c == '/'

theorem takeWhile_fill {above filled rest : List Char} (habove : ∀ c ∈ above, c ≠ '?')
    (hfilled : ∀ c ∈ filled, isDelimiter c = false) :
    (above ++ '/' :: (filled ++ rest)).takeWhile (· ≠ '?')
      = above ++ '/' :: (filled ++ rest.takeWhile (· ≠ '?')) := by
  have hno : ∀ c ∈ filled, c ≠ '?' := by
    rintro c hc rfl
    exact absurd (hfilled _ hc) (by decide)
  rw [List.takeWhile_append_of_pos (by simpa using habove), List.takeWhile_cons_of_pos (by decide),
    List.takeWhile_append_of_pos (by simpa using hno)]

theorem segments_fill (above rest : String) {filled : String} (habove : above.toList.contains '?' = false)
    (hfilled : FillsSegment filled) (hrest : followsSegment rest = true) :
    segments (above ++ "/" ++ filled ++ rest) = segments above ++ filled :: segmentsBelow rest := by
  have hno : '/' ∉ filled.toList := fun hc => absurd (hfilled.2 _ hc) (by decide)
  have hquery : ∀ c ∈ above.toList, c ≠ '?' := by
    rintro _ hc rfl
    simp [hc] at habove
  have hall : above.toList.takeWhile (· ≠ '?') = above.toList :=
    List.takeWhile_eq_self_iff.mpr (by simpa using hquery)
  unfold segments segmentsBelow followsSegment splitSlash at *
  have hchars : (above ++ "/" ++ filled ++ rest).toList = above.toList ++ '/' :: (filled.toList ++ rest.toList) := by
    simp [String.toList_append]
  rw [hchars, takeWhile_fill hquery hfilled.2, hall, List.splitOn_append_cons_self, List.map_append]
  congr 1
  cases hr : rest.toList with
  | nil => simp [List.splitOn_eq_singleton hno]
  | cons c below =>
    rw [hr] at hrest
    obtain rfl : c = '/' := by simpa using hrest
    rw [List.takeWhile_cons_of_pos (by decide), List.splitOn_append_cons_self_of_not_mem hno]
    simp

theorem segments_query {path : String} (hquery : path.toList.contains '?' = false) (query : String) :
    segments (path ++ "?" ++ query) = segments path := by
  have hno : ∀ c ∈ path.toList, (decide (c ≠ '?')) = true := by
    intro c hc
    rw [decide_eq_true_eq]
    rintro rfl
    simp [hc] at hquery
  have hchars : (path ++ "?" ++ query).toList = path.toList ++ '?' :: query.toList := by simp [String.toList_append]
  unfold segments
  rw [hchars, List.takeWhile_append_of_pos hno, List.takeWhile_cons_of_neg (by decide), List.append_nil,
    List.takeWhile_eq_self_iff.mpr hno]

/-! ### Routing -/

/-- The segments of each pattern. -/
def rowSegments : RouteId → List String
  | .health => ["", "v1", "health"]
  | .receivers => ["", "v1", "receivers"]
  | .state => ["", "v1", "receivers", "{id}", "state"]
  | .sources => ["", "v1", "receivers", "{id}", "sources"]
  | .stateEvents => ["", "v1", "receivers", "{id}", "events"]
  | .operationEvents => ["", "v1", "operations", "events"]
  | .submit => ["", "v1", "receivers", "{id}", "operations"]
  | .dryRun => ["", "v1", "receivers", "{id}", "operations", "dry-run"]
  | .operation => ["", "v1", "operations", "{id}"]
  | .cancel => ["", "v1", "operations", "{id}", "cancel"]
  | .discover => ["", "v1", "receivers", "discover"]
  | .adHoc => ["", "v1", "receivers", "ad-hoc"]
  | .configGet | .configPut => ["", "v1", "config"]
  | .quickSelectNames => ["", "v1", "receivers", "{id}", "quick-select-names"]
  | .httpInformation => ["", "v1", "receivers", "{id}", "http-information"]
  | .refresh => ["", "v1", "receivers", "{id}", "refresh"]
  | .policyGet => ["", "v1", "policy"]
  | .policyReload => ["", "v1", "policy", "reload"]
  | .audit => ["", "v1", "audit"]
  | .tokenIssue | .tokenList => ["", "v1", "tokens"]
  | .tokenRevoke => ["", "v1", "tokens", "{id}"]

theorem segments_eq_rowSegments : ∀ row ∈ table, row.segments = rowSegments row.id := by decide

/-- The rows of one pattern differ in their methods. The first of them stands for the pattern. -/
def patternOf : RouteId → RouteId
  | .configPut => .configGet
  | .tokenList => .tokenIssue
  | id => id

theorem rowSegments_patternOf (id : RouteId) : rowSegments (patternOf id) = rowSegments id := by cases id <;> rfl

theorem precedes_self (pattern : List String) : precedes pattern pattern = false := by
  induction pattern with
  | nil => rfl
  | cons p ps ih =>
    unfold precedes
    rw [if_pos (beq_self_eq_true _), ih]

/-- If only one pattern fits a path, the row is the one with that pattern and the method. -/
theorem routed_eq_filter {operator : Bool} {method : Method} {path : String} {id : RouteId}
    (hfits : ∀ row ∈ table, fitsSegments row.segments (segments path) = (patternOf row.id == patternOf id))
    (hmethod : ∀ row ∈ table, (row.method == method && patternOf row.id == patternOf id) = (row.id == id)) :
    routed operator method path = (servedTo operator).filter (·.id == id) := by
  have hserved : ∀ row ∈ servedTo operator, row ∈ table := fun row hrow => List.mem_of_mem_filter hrow
  have hfitting : ((servedTo operator).filter fun row => fitsSegments row.segments (segments path))
      = (servedTo operator).filter fun row => patternOf row.id == patternOf id :=
    List.filter_congr fun row hrow => hfits row (hserved row hrow)
  have hsegments : ∀ row ∈ (servedTo operator).filter fun row => patternOf row.id == patternOf id,
      row.segments = rowSegments id := by
    intro row hrow
    obtain ⟨hrow, hid⟩ := List.mem_filter.mp hrow
    rw [segments_eq_rowSegments row (hserved row hrow), ← rowSegments_patternOf row.id, eq_of_beq hid,
      rowSegments_patternOf]
  have hfirst : ∀ row ∈ (servedTo operator).filter fun row => patternOf row.id == patternOf id,
      (((servedTo operator).filter fun row => patternOf row.id == patternOf id).all
        fun other => !precedes other.segments row.segments) = true := by
    intro row hrow
    rw [List.all_eq_true]
    intro other hother
    rw [hsegments row hrow, hsegments other hother, precedes_self]
    rfl
  unfold routed
  dsimp only
  rw [hfitting, List.filter_eq_self.mpr hfirst, List.filter_filter]
  exact List.filter_congr fun row hrow => hmethod row (hserved row hrow)

theorem isEmpty_eq_false {text : String} (h : text ≠ "") : text.isEmpty = false := by
  rwa [Bool.eq_false_iff, ne_eq, String.isEmpty_iff]

/-- Two paths that differ in one segment fit the same patterns, if those that fit the rest have a parameter in its
place, or a static segment that is neither of the two. -/
theorem fitsSegments_swap {above below : List String} {x y : String} (hx : x ≠ "") (hy : y ≠ "") {pattern : List String}
    (h : ∀ p ∈ pattern[above.length]?, fitsSegments (pattern.take above.length) above = true →
      fitsSegments (pattern.drop (above.length + 1)) below = true → isParam p = true ∨ p ≠ x ∧ p ≠ y) :
    fitsSegments pattern (above ++ x :: below) = fitsSegments pattern (above ++ y :: below) := by
  induction above generalizing pattern with
  | nil =>
    cases pattern with
    | nil => rfl
    | cons p ps =>
      simp only [List.nil_append, fitsSegments]
      cases hbelow : fitsSegments ps below with
      | false => simp
      | true =>
        rcases h p rfl rfl hbelow with hp | ⟨hpx, hpy⟩
        · simp [hp, isEmpty_eq_false hx, isEmpty_eq_false hy]
        · simp [beq_eq_false_iff_ne.mpr hpx, beq_eq_false_iff_ne.mpr hpy, isEmpty_eq_false hx, isEmpty_eq_false hy]
  | cons q qs ih =>
    cases pattern with
    | nil => rfl
    | cons p ps =>
      simp only [List.cons_append, fitsSegments]
      cases hq : (isParam p && !q.isEmpty) || p == q with
      | false => simp
      | true =>
        rw [ih fun p' hp' habove hbelow => h p' (by simpa using hp') (by simpa [fitsSegments, hq] using habove)
          (by simpa using hbelow)]

theorem find_captured {above below pattern : List String} {p x : String} (hparam : isParam p = true)
    (hp : pattern[above.length]? = some p) (habove : ∀ q ∈ pattern.take above.length, isParam q = false) :
    (pattern.zip (above ++ x :: below)).find? (fun pair => isParam pair.1) = some (p, x) := by
  induction above generalizing pattern with
  | nil =>
    cases pattern with
    | nil => cases hp
    | cons q qs =>
      obtain rfl : q = p := Option.some.inj hp
      simp [hparam]
  | cons a above ih =>
    cases pattern with
    | nil => cases hp
    | cons q qs =>
      have hq : isParam q = false := habove q (by simp)
      rw [List.cons_append, List.zip_cons_cons, List.find?_cons_of_neg (by simp [hq])]
      exact ih (by simpa using hp) fun r hr => habove r (by simp [hr])

/-- Among the rows that begin like `above`, what comes next is a parameter, or is one of `names` and ends the pattern. -/
def PlaceAfter (above names : List String) : Prop :=
  ∀ row ∈ table, ∀ p ∈ (rowSegments row.id)[above.length]?,
    fitsSegments ((rowSegments row.id).take above.length) above = true →
      isParam p = true ∨ p ∈ names ∧ (rowSegments row.id).length = above.length + 1

instance (above names : List String) : Decidable (PlaceAfter above names) :=
  inferInstanceAs (Decidable (∀ row ∈ table, _))

theorem length_of_fitsSegments {pattern path : List String} (h : fitsSegments pattern path = true) :
    pattern.length = path.length := by
  induction pattern generalizing path with
  | nil =>
    cases path with
    | nil => rfl
    | cons q qs => cases h
  | cons p ps ih =>
    cases path with
    | nil => cases h
    | cons q qs =>
      simp only [fitsSegments, Bool.and_eq_true] at h
      simp [ih h.2]

/-- What stands in a place fits as `x` does there. -/
theorem fitsSegments_place {above names below : List String} {filled : String} (hplace : PlaceAfter above names)
    (hfilled : filled ≠ "") (hsample : "x" ∉ names) (hnames : filled ∉ names ∨ below ≠ []) {row : Route}
    (hrow : row ∈ table) :
    fitsSegments row.segments (above ++ filled :: below)
      = fitsSegments (rowSegments row.id) (above ++ "x" :: below) := by
  rw [segments_eq_rowSegments row hrow]
  refine fitsSegments_swap hfilled (by decide) fun p hp habove hbelow => ?_
  rcases hplace row hrow p hp habove with hparam | ⟨hmem, hlength⟩
  · exact .inl hparam
  · have hbelow' := length_of_fitsSegments hbelow
    rw [List.length_drop, hlength, Nat.sub_self] at hbelow'
    rcases hnames with hnot | hne
    · exact .inr ⟨fun h => hnot (h ▸ hmem), fun h => hsample (h ▸ hmem)⟩
    · exact absurd (List.length_eq_zero_iff.mp hbelow'.symm) hne

/-- The segment that follows `above` is the one the row captures. -/
def CapturesAfter (above : List String) (row : Route) : Prop :=
  ((rowSegments row.id)[above.length]?).any isParam = true ∧
    ((rowSegments row.id).take above.length).all (fun q => !isParam q) = true

instance (above : List String) (row : Route) : Decidable (CapturesAfter above row) :=
  inferInstanceAs (Decidable (_ ∧ _))

theorem captured_place {above below : List String} {filled path : String} {row : Route} (hrow : row ∈ table)
    (hpath : segments path = above ++ filled :: below) (hcaptures : CapturesAfter above row) :
    captured row path = some filled := by
  obtain ⟨hany, hfirst⟩ := hcaptures
  obtain ⟨p, hp⟩ : ∃ p, (rowSegments row.id)[above.length]? = some p := by
    cases h : (rowSegments row.id)[above.length]? with
    | none => simp [h] at hany
    | some p => exact ⟨p, rfl⟩
  have hparam : isParam p = true := by simpa [hp] using hany
  unfold captured
  rw [hpath, segments_eq_rowSegments row hrow, find_captured hparam hp (by simpa using hfirst)]
  rfl

/-! ### The requests of a client -/

/-- What a path may name. -/
inductive PathId
  | receiver (id : ReceiverId)
  | operation (id : UInt64)
  | token (id : TokenId)
deriving DecidableEq

/-- The requests below one receiver. -/
inductive ReceiverRequest
  | state | sources | stateEvents | submit | dryRun | quickSelectNames | httpInformation | refresh
deriving DecidableEq

inductive ClientRequest
  | health | receivers | operationEvents | discover | adHoc | configGet | configPut | policyGet | policyReload
  | tokenIssue | tokenList
  | ofReceiver (request : ReceiverRequest) (receiver : ReceiverId)
  | operation (id : UInt64) (waitMs : Option UInt64)
  | cancel (id : UInt64)
  | audit (limit : UInt64) (cursor : Option UInt64)
  | tokenRevoke (id : TokenId)

def ReceiverRequest.path (receiver : ReceiverId) : ReceiverRequest → String
  | .state => Request.state receiver
  | .sources => Request.sources receiver
  | .stateEvents => Request.stateEvents receiver
  | .submit => Request.submit receiver
  | .dryRun => Request.dryRun receiver
  | .quickSelectNames => Request.quickSelectNames receiver
  | .httpInformation => Request.httpInformation receiver
  | .refresh => Request.refresh receiver

def ReceiverRequest.method : ReceiverRequest → Method
  | .state | .sources | .stateEvents | .quickSelectNames | .httpInformation => .get
  | .submit | .dryRun | .refresh => .post

/-- The row a request is meant for. -/
def ReceiverRequest.route : ReceiverRequest → RouteId
  | .state => .state
  | .sources => .sources
  | .stateEvents => .stateEvents
  | .submit => .submit
  | .dryRun => .dryRun
  | .quickSelectNames => .quickSelectNames
  | .httpInformation => .httpInformation
  | .refresh => .refresh

namespace ClientRequest

def path : ClientRequest → String
  | health => Request.health
  | receivers => Request.receivers
  | operationEvents => Request.operationEvents
  | discover => Request.discover
  | adHoc => Request.adHoc
  | configGet | configPut => Request.config
  | policyGet => Request.policy
  | policyReload => Request.policyReload
  | tokenIssue | tokenList => Request.tokens
  | ofReceiver request receiver => request.path receiver
  | operation id waitMs => Request.operation id waitMs
  | cancel id => Request.cancel id
  | audit limit cursor => Request.audit limit cursor
  | tokenRevoke id => Request.token id.value

def method : ClientRequest → Method
  | discover | adHoc | policyReload | tokenIssue | cancel _ => .post
  | configPut => .put
  | tokenRevoke _ => .delete
  | ofReceiver request _ => request.method
  | _ => .get

/-- The row a request is meant for. -/
def route : ClientRequest → RouteId
  | health => .health
  | receivers => .receivers
  | operationEvents => .operationEvents
  | discover => .discover
  | adHoc => .adHoc
  | configGet => .configGet
  | configPut => .configPut
  | policyGet => .policyGet
  | policyReload => .policyReload
  | tokenIssue => .tokenIssue
  | tokenList => .tokenList
  | ofReceiver request _ => request.route
  | operation _ _ => .operation
  | cancel _ => .cancel
  | audit _ _ => .audit
  | tokenRevoke _ => .tokenRevoke

/-- The id a path is built from. -/
def id : ClientRequest → Option PathId
  | ofReceiver _ receiver => some (.receiver receiver)
  | operation id _ | cancel id => some (.operation id)
  | tokenRevoke id => some (.token id)
  | _ => none

end ClientRequest

/-- What the handler of a row makes of the segment it is given. -/
def readId (route : RouteId) (text : String) : Option PathId :=
  match route with
  | .operation | .cancel => (parseU64 text).map .operation
  | .tokenRevoke => if h : tokenIdIsWellFormed text = true then some (.token ⟨text, h⟩) else none
  | _ => (parseReceiverId text).toOption.map .receiver

/-- The id a row reads from a path. -/
def Route.idOf (row : Route) (path : String) : Option PathId :=
  ((captured row path).bind decodeSegment).bind (readId row.id)

/-! ### The segments of each path -/

def ReceiverRequest.rest : ReceiverRequest → String
  | .state => "/state"
  | .sources => "/sources"
  | .stateEvents => "/events"
  | .submit => "/operations"
  | .dryRun => "/operations/dry-run"
  | .quickSelectNames => "/quick-select-names"
  | .httpInformation => "/http-information"
  | .refresh => "/refresh"

def ReceiverRequest.below : ReceiverRequest → List String
  | .state => ["state"]
  | .sources => ["sources"]
  | .stateEvents => ["events"]
  | .submit => ["operations"]
  | .dryRun => ["operations", "dry-run"]
  | .quickSelectNames => ["quick-select-names"]
  | .httpInformation => ["http-information"]
  | .refresh => ["refresh"]

theorem receiver_value_ne_empty (receiver : ReceiverId) : receiver.value ≠ "" := by
  obtain ⟨value, hvalid⟩ := receiver
  rintro rfl
  revert hvalid
  decide

theorem tokenId_value_ne_empty (id : TokenId) : id.value ≠ "" := by
  obtain ⟨value, hvalid⟩ := id
  rintro rfl
  revert hvalid
  decide

theorem segments_ofReceiver (request : ReceiverRequest) (receiver : ReceiverId) :
    segments (request.path receiver) = ["", "v1", "receivers"] ++ encodeSegment receiver.value :: request.below := by
  have hpath : request.path receiver = "/v1/receivers" ++ "/" ++ encodeSegment receiver.value ++ request.rest := by
    cases request <;> rfl
  have habove : segments "/v1/receivers" = ["", "v1", "receivers"] := by decide
  have hbelow : segmentsBelow request.rest = request.below := by cases request <;> decide
  rw [hpath, segments_fill _ _ (by decide) (fillsSegment_encodeSegment (receiver_value_ne_empty receiver))
    (by cases request <;> decide), habove, hbelow]

theorem segments_ofOperation (id : UInt64) (rest : String) (hrest : followsSegment rest = true) :
    segments ("/v1/operations" ++ "/" ++ decimal id ++ rest)
      = ["", "v1", "operations"] ++ decimal id :: segmentsBelow rest := by
  have habove : segments "/v1/operations" = ["", "v1", "operations"] := by decide
  rw [segments_fill _ _ (by decide) (fillsSegment_decimal id) hrest, habove]

theorem contains_operation (id : UInt64) : ("/v1/operations" ++ "/" ++ decimal id).toList.contains '?' = false := by
  have hdigits : '?' ∉ (decimal id).toList := fun h => absurd (isDigit_of_mem_decimal h) (by decide)
  simpa [String.toList_append] using hdigits

theorem segments_operation (id : UInt64) (waitMs : Option UInt64) :
    segments (Request.operation id waitMs) = ["", "v1", "operations"] ++ decimal id :: [] := by
  have hplain : segments ("/v1/operations" ++ "/" ++ decimal id) = ["", "v1", "operations"] ++ decimal id :: [] := by
    have h := segments_ofOperation id "" rfl
    rwa [String.append_empty] at h
  cases waitMs with
  | none => exact hplain
  | some wait =>
    have hpath : Request.operation id (some wait)
        = "/v1/operations" ++ "/" ++ decimal id ++ "?" ++ ("wait_ms=" ++ decimal wait) := by
      show "/v1/operations/" ++ decimal id ++ ("?" ++ "wait_ms=") ++ decimal wait = _
      simp only [String.append_assoc]
      rfl
    rw [hpath, segments_query (contains_operation id), hplain]

theorem segments_cancel (id : UInt64) :
    segments (Request.cancel id) = ["", "v1", "operations"] ++ decimal id :: ["cancel"] :=
  segments_ofOperation id "/cancel" rfl

theorem segments_token (id : TokenId) :
    segments (Request.token id.value) = ["", "v1", "tokens"] ++ encodeSegment id.value :: [] := by
  have habove : segments "/v1/tokens" = ["", "v1", "tokens"] := by decide
  have h := segments_fill "/v1/tokens" "" (by decide)
    (fillsSegment_encodeSegment (tokenId_value_ne_empty id)) rfl
  rwa [String.append_empty, habove] at h

theorem segments_audit (limit : UInt64) (cursor : Option UInt64) :
    segments (Request.audit limit cursor) = ["", "v1", "audit"] := by
  have hplain : segments "/v1/audit" = ["", "v1", "audit"] := by decide
  have hpath : ∃ query, Request.audit limit cursor = "/v1/audit" ++ "?" ++ query := by
    cases cursor with
    | none => exact ⟨"limit=" ++ decimal limit, by rw [← String.append_assoc]; rfl⟩
    | some cursor =>
      refine ⟨"limit=" ++ decimal limit ++ "&cursor=" ++ decimal cursor, ?_⟩
      simp only [← String.append_assoc]
      rfl
  obtain ⟨query, hpath⟩ := hpath
  rw [hpath, segments_query (by decide), hplain]

/-! ### Where each path leads -/

def LeadsToRoute (request : ClientRequest) : Prop :=
  ∀ operator, routed operator request.method request.path = (servedTo operator).filter (·.id == request.route)

theorem method_eq (request : ClientRequest) :
    ∀ row ∈ table, (row.method == request.method && patternOf row.id == patternOf request.route)
      = (row.id == request.route) := by
  cases request with
  | ofReceiver request receiver =>
    show ∀ row ∈ table, (row.method == request.method && patternOf row.id == patternOf request.route)
      = (row.id == request.route)
    cases request <;> decide
  | operation id waitMs =>
    show ∀ row ∈ table, (row.method == Method.get && patternOf row.id == patternOf .operation) = (row.id == .operation)
    decide
  | cancel id =>
    show ∀ row ∈ table, (row.method == Method.post && patternOf row.id == patternOf .cancel) = (row.id == .cancel)
    decide
  | audit limit cursor =>
    show ∀ row ∈ table, (row.method == Method.get && patternOf row.id == patternOf .audit) = (row.id == .audit)
    decide
  | tokenRevoke id =>
    show ∀ row ∈ table, (row.method == Method.delete && patternOf row.id == patternOf .tokenRevoke)
      = (row.id == .tokenRevoke)
    decide
  | _ => decide

theorem placeAfter_receivers : PlaceAfter ["", "v1", "receivers"] ["discover", "ad-hoc"] := by decide
theorem placeAfter_operations : PlaceAfter ["", "v1", "operations"] ["events"] := by decide
theorem placeAfter_tokens : PlaceAfter ["", "v1", "tokens"] [] := by decide

theorem leadsToRoute_ofReceiver (request : ReceiverRequest) (receiver : ReceiverId) :
    LeadsToRoute (.ofReceiver request receiver) := by
  intro operator
  refine routed_eq_filter (fun row hrow => ?_) (method_eq _)
  have hsample : ∀ row ∈ table,
      fitsSegments (rowSegments row.id) (["", "v1", "receivers"] ++ "x" :: request.below)
        = (patternOf row.id == patternOf request.route) := by
    cases request <;> decide
  have hbelow : request.below ≠ [] := by cases request <;> simp [ReceiverRequest.below]
  exact (congrArg _ (segments_ofReceiver request receiver)).trans <| (fitsSegments_place placeAfter_receivers
    (encodeSegment_ne_empty (receiver_value_ne_empty receiver)) (by decide) (.inr hbelow) hrow).trans (hsample row hrow)

theorem decimal_notMem_events (id : UInt64) : decimal id ∉ ["events"] := by
  rw [List.mem_singleton]
  exact decimal_ne_of_not_digits (by decide)

theorem leadsToRoute_operation (id : UInt64) (waitMs : Option UInt64) : LeadsToRoute (.operation id waitMs) := by
  intro operator
  refine routed_eq_filter (fun row hrow => ?_) (method_eq _)
  have hsample : ∀ row ∈ table, fitsSegments (rowSegments row.id) (["", "v1", "operations"] ++ "x" :: [])
      = (patternOf row.id == patternOf .operation) := by
    decide
  exact (congrArg _ (segments_operation id waitMs)).trans <| (fitsSegments_place placeAfter_operations
    (decimal_ne_empty id) (by decide) (.inl (decimal_notMem_events id)) hrow).trans (hsample row hrow)

theorem leadsToRoute_cancel (id : UInt64) : LeadsToRoute (.cancel id) := by
  intro operator
  refine routed_eq_filter (fun row hrow => ?_) (method_eq _)
  have hsample : ∀ row ∈ table, fitsSegments (rowSegments row.id) (["", "v1", "operations"] ++ "x" :: ["cancel"])
      = (patternOf row.id == patternOf .cancel) := by
    decide
  exact (congrArg _ (segments_cancel id)).trans <| (fitsSegments_place placeAfter_operations
    (decimal_ne_empty id) (by decide) (.inl (decimal_notMem_events id)) hrow).trans (hsample row hrow)

theorem leadsToRoute_tokenRevoke (id : TokenId) : LeadsToRoute (.tokenRevoke id) := by
  intro operator
  refine routed_eq_filter (fun row hrow => ?_) (method_eq _)
  have hsample : ∀ row ∈ table, fitsSegments (rowSegments row.id) (["", "v1", "tokens"] ++ "x" :: [])
      = (patternOf row.id == patternOf .tokenRevoke) := by
    decide
  exact (congrArg _ (segments_token id)).trans <| (fitsSegments_place placeAfter_tokens
    (encodeSegment_ne_empty (tokenId_value_ne_empty id)) (by decide) (.inl List.not_mem_nil) hrow).trans
      (hsample row hrow)

/-- The requests without an id in their path. -/
theorem leadsToRoute_of_segments {request : ClientRequest} (path : List String) (hpath : segments request.path = path)
    (hfits : ∀ row ∈ table, fitsSegments (rowSegments row.id) path = (patternOf row.id == patternOf request.route)) :
    LeadsToRoute request := by
  intro operator
  refine routed_eq_filter (fun row hrow => ?_) (method_eq _)
  rw [hpath, segments_eq_rowSegments row hrow, hfits row hrow]

theorem leadsToRoute_operationEvents : LeadsToRoute .operationEvents := by
  intro operator
  cases operator <;> decide

/-- **A path is routed to the row it was built for, and to no other.** -/
theorem leadsToRoute (request : ClientRequest) : LeadsToRoute request := by
  cases request with
  | ofReceiver request receiver => exact leadsToRoute_ofReceiver request receiver
  | operation id waitMs => exact leadsToRoute_operation id waitMs
  | cancel id => exact leadsToRoute_cancel id
  | audit limit cursor =>
    have hfits : ∀ row ∈ table,
        fitsSegments (rowSegments row.id) ["", "v1", "audit"] = (patternOf row.id == patternOf .audit) := by decide
    exact leadsToRoute_of_segments _ (segments_audit limit cursor) hfits
  | tokenRevoke id => exact leadsToRoute_tokenRevoke id
  | operationEvents => exact leadsToRoute_operationEvents
  | health => exact leadsToRoute_of_segments ["", "v1", "health"] (by decide) (by decide)
  | receivers => exact leadsToRoute_of_segments ["", "v1", "receivers"] (by decide) (by decide)
  | discover => exact leadsToRoute_of_segments ["", "v1", "receivers", "discover"] (by decide) (by decide)
  | adHoc => exact leadsToRoute_of_segments ["", "v1", "receivers", "ad-hoc"] (by decide) (by decide)
  | configGet | configPut => exact leadsToRoute_of_segments ["", "v1", "config"] (by decide) (by decide)
  | policyGet => exact leadsToRoute_of_segments ["", "v1", "policy"] (by decide) (by decide)
  | policyReload => exact leadsToRoute_of_segments ["", "v1", "policy", "reload"] (by decide) (by decide)
  | tokenIssue | tokenList => exact leadsToRoute_of_segments ["", "v1", "tokens"] (by decide) (by decide)

/-! ### The id a row reads -/

theorem utf8Bytes_eq_flatMap (text : String) : utf8Bytes text = text.toList.flatMap String.utf8EncodeChar := by
  have hbytes : text.toUTF8 = text.toList.utf8Encode := by
    conv_lhs => rw [← String.ofList_toList (s := text)]
    exact String.toByteArray_ofList
  rw [utf8Bytes, hbytes, List.utf8Encode]
  simp

/-- What has no `%` is decoded to itself. -/
theorem decodeSegment_of_notMem {text : String} (h : '%' ∉ text.toList) : decodeSegment text = some text := by
  have hdecode : ∀ cs : List Char, '%' ∉ cs → Percent.decode cs = cs.flatMap String.utf8EncodeChar := by
    intro cs hcs
    induction cs with
    | nil => rfl
    | cons c rest ih =>
      rw [List.mem_cons, not_or] at hcs
      rw [Percent.decode_cons_of_ne (Ne.symm hcs.1), ih hcs.2, List.flatMap_cons]
  unfold decodeSegment
  rw [hdecode _ h, ← utf8Bytes_eq_flatMap, fromUtf8_utf8Bytes]

theorem decodeSegment_decimal (id : UInt64) : decodeSegment (decimal id) = some (decimal id) :=
  decodeSegment_of_notMem fun h => absurd (isDigit_of_mem_decimal h) (by decide)

theorem idOf_of_segments {row : Route} {path filled text : String} {above below : List String} (hrow : row ∈ table)
    (hpath : segments path = above ++ filled :: below) (hcaptures : CapturesAfter above row)
    (hfilled : decodeSegment filled = some text) : row.idOf path = readId row.id text := by
  unfold Route.idOf
  rw [captured_place hrow hpath hcaptures, Option.bind_some, hfilled, Option.bind_some]

/-- The rows meant for a request read from its path the id it was built from. -/
def ReadsBack (request : ClientRequest) : Prop :=
  ∀ row ∈ table, row.id = request.route → row.idOf request.path = request.id

theorem readsBack_ofReceiver (request : ReceiverRequest) (receiver : ReceiverId) :
    ReadsBack (.ofReceiver request receiver) := by
  intro row hrow hid
  replace hid : row.id = request.route := hid
  have hcaptures : CapturesAfter ["", "v1", "receivers"] row := by
    have hall : ∀ row ∈ table, row.id = request.route → CapturesAfter ["", "v1", "receivers"] row := by
      cases request <;> decide
    exact hall row hrow hid
  have hread : readId request.route receiver.value = some (.receiver receiver) := by
    cases request <;> simp [readId, ReceiverRequest.route, parseReceiverId_value, Except.toOption]
  exact (idOf_of_segments hrow (segments_ofReceiver request receiver) hcaptures (decodeSegment_encodeSegment _)).trans
    (hid ▸ hread)

theorem capturesAfter_operations : ∀ row ∈ table, row.id = .operation ∨ row.id = .cancel →
    CapturesAfter ["", "v1", "operations"] row := by decide

theorem readsBack_operation (id : UInt64) (waitMs : Option UInt64) : ReadsBack (.operation id waitMs) := by
  intro row hrow hid
  replace hid : row.id = .operation := hid
  have hread : readId row.id (decimal id) = some (.operation id) := by
    rw [hid]
    simp [readId, parseU64_decimal]
  exact (idOf_of_segments hrow (segments_operation id waitMs) (capturesAfter_operations row hrow (.inl hid))
    (decodeSegment_decimal id)).trans hread

theorem readsBack_cancel (id : UInt64) : ReadsBack (.cancel id) := by
  intro row hrow hid
  replace hid : row.id = .cancel := hid
  have hread : readId row.id (decimal id) = some (.operation id) := by
    rw [hid]
    simp [readId, parseU64_decimal]
  exact (idOf_of_segments hrow (segments_cancel id) (capturesAfter_operations row hrow (.inr hid))
    (decodeSegment_decimal id)).trans hread

theorem readsBack_tokenRevoke (id : TokenId) : ReadsBack (.tokenRevoke id) := by
  intro row hrow hid
  replace hid : row.id = .tokenRevoke := hid
  have hcaptures : CapturesAfter ["", "v1", "tokens"] row := by
    have hall : ∀ row ∈ table, row.id = .tokenRevoke → CapturesAfter ["", "v1", "tokens"] row := by decide
    exact hall row hrow hid
  have hread : readId row.id id.value = some (.token id) := by
    rw [hid]
    simp [readId, id.valid]
  exact (idOf_of_segments hrow (segments_token id) hcaptures (decodeSegment_encodeSegment _)).trans hread

theorem captured_of_noParam {row : Route} (hrow : row ∈ table)
    (hnone : (rowSegments row.id).all (fun p => !isParam p) = true) (path : String) : captured row path = none := by
  unfold captured
  rw [segments_eq_rowSegments row hrow, Option.map_eq_none_iff, List.find?_eq_none]
  intro pair hpair
  have hparam := List.all_eq_true.mp hnone pair.1 (List.of_mem_zip hpair).1
  simpa using hparam

/-- The requests without an id are for rows without a parameter. -/
theorem readsBack_of_noParam {request : ClientRequest} (hid : request.id = none)
    (hnone : (rowSegments request.route).all (fun p => !isParam p) = true) : ReadsBack request := by
  intro row hrow hroute
  unfold Route.idOf
  rw [captured_of_noParam hrow (hroute ▸ hnone), hid]
  rfl

theorem readsBack (request : ClientRequest) : ReadsBack request := by
  cases request with
  | ofReceiver request receiver => exact readsBack_ofReceiver request receiver
  | operation id waitMs => exact readsBack_operation id waitMs
  | cancel id => exact readsBack_cancel id
  | tokenRevoke id => exact readsBack_tokenRevoke id
  | audit limit cursor =>
    have hnone : (rowSegments .audit).all (fun p => !isParam p) = true := by decide
    exact readsBack_of_noParam rfl hnone
  | _ => exact readsBack_of_noParam rfl (by decide)

/-- **Client paths and the route table agree.** Each path a client builds is routed to the one row it was built for, of
those the endpoint serves, and that row reads back the id; no two texts have the same segment, and a segment has none of
the characters that end one. -/
theorem client_paths :
    (∀ (request : ClientRequest) (operator : Bool),
        routed operator request.method request.path = (servedTo operator).filter (·.id == request.route)) ∧
      (∀ id, ∃ row, table.filter (·.id == id) = [row]) ∧
      (∀ request : ClientRequest, ∀ row ∈ table, row.id = request.route → row.idOf request.path = request.id) ∧
      Function.Injective encodeSegment ∧
      ∀ text, ∀ c ∈ (encodeSegment text).toList, c ≠ '/' ∧ c ≠ '?' ∧ c ≠ '#' := by
  refine ⟨leadsToRoute, fun id => ?_, readsBack, encodeSegment_injective, fun text c hc => ?_⟩
  · cases id <;> exact ⟨_, rfl⟩
  · have hdelimiter := isDelimiter_of_mem_encodeSegment hc
    simpa [isDelimiter, and_assoc] using hdelimiter

end DenonAvr.ApiContract
