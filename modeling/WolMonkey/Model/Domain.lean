import Mathlib.Data.List.Basic

/-!
# Domain values

The framework-free part of the application (`app/domain`), and the two readings of an
identifier. Identifiers reach the application as strings. `_is_valid_uuid` asks Python's
`uuid.UUID` whether a string denotes a UUID at all; the database driver accepts only 32
hexadecimal digits with optional hyphens, and only its reading names a row.
-/

namespace WolMonkey

/-- Microseconds since the epoch: the resolution of `datetime`. -/
abbrev DateTime := Int

def DateTime.seconds (n : Int) : Int := n * 1000000

def DateTime.hours (n : Int) : Int := DateTime.seconds (n * 3600)

/-! ## Identifiers -/

/-- A UUID as its 32 hexadecimal digits. -/
structure Uuid where
  digits : List (Fin 16)
  length_digits : digits.length = 32
deriving DecidableEq

namespace Uuid

def hexChar (d : Fin 16) : Char := Char.ofNat (if d.val < 10 then 48 + d.val else 87 + d.val)

def hexDigit? (c : Char) : Option (Fin 16) :=
  let n := c.toNat
  if h : 48 ≤ n ∧ n ≤ 57 then some ⟨n - 48, by omega⟩
  else if h : 97 ≤ n ∧ n ≤ 102 then some ⟨n - 87, by omega⟩
  else if h : 65 ≤ n ∧ n ≤ 70 then some ⟨n - 55, by omega⟩
  else none

/-- The low `k` hexadecimal digits of a number. -/
def digitsOfNat : Nat → Nat → List (Fin 16)
  | 0, _ => []
  | k + 1, n => digitsOfNat k (n / 16) ++ [⟨n % 16, Nat.mod_lt _ (by decide)⟩]

theorem length_digitsOfNat (k n : Nat) : (digitsOfNat k n).length = k := by
  induction k generalizing n with
  | zero => rfl
  | succ k ih => simp only [digitsOfNat, List.length_append, ih, List.length_singleton]

def ofNat (n : Nat) : Uuid := ⟨digitsOfNat 32 n, length_digitsOfNat 32 n⟩

/-- The canonical text: lower case, grouped 8-4-4-4-12. -/
def text (u : Uuid) : String :=
  let cs := u.digits.map hexChar
  String.ofList (cs.take 8 ++ '-' :: ((cs.drop 8).take 4 ++ '-' :: ((cs.drop 12).take 4 ++
    '-' :: ((cs.drop 16).take 4 ++ '-' :: cs.drop 20))))

/-- How the driver reads a bound UUID parameter: between 32 and 36 characters, hyphens
anywhere, and 32 hexadecimal digits. -/
def parse? (s : String) : Option Uuid :=
  if s.toList.length ≤ 36 then
    match (s.toList.filter (· != '-')).mapM hexDigit? with
    | some ds => if h : ds.length = 32 then some ⟨ds, h⟩ else none
    | none => none
  else none

theorem hexDigit?_hexChar (d : Fin 16) : hexDigit? (hexChar d) = some d := by
  revert d
  decide

theorem hexChar_ne_hyphen (d : Fin 16) : hexChar d ≠ '-' := by
  revert d
  decide

theorem mapM_hexDigit? (ds : List (Fin 16)) : (ds.map hexChar).mapM hexDigit? = some ds := by
  induction ds with
  | nil => rfl
  | cons d ds ih => simp [hexDigit?_hexChar, ih]

theorem filter_hexChar (ds : List (Fin 16)) :
    (ds.map hexChar).filter (· != '-') = ds.map hexChar := by
  rw [List.filter_eq_self]
  intro c hc
  obtain ⟨d, -, rfl⟩ := List.mem_map.mp hc
  simpa using hexChar_ne_hyphen d

theorem filter_text (u : Uuid) : u.text.toList.filter (· != '-') = u.digits.map hexChar := by
  simp only [text, String.toList_ofList, ← List.map_take, ← List.map_drop,
    List.filter_append, List.filter_cons, filter_hexChar]
  simp only [bne_self_eq_false, Bool.false_eq_true, if_false, ← List.map_append]
  congr 1
  have h20 : u.digits.drop 20 = (u.digits.drop 16).drop 4 := by rw [List.drop_drop]
  have h16 : u.digits.drop 16 = (u.digits.drop 12).drop 4 := by rw [List.drop_drop]
  have h12 : u.digits.drop 12 = (u.digits.drop 8).drop 4 := by rw [List.drop_drop]
  rw [h20, List.take_append_drop, h16, List.take_append_drop, h12, List.take_append_drop,
    List.take_append_drop]

theorem length_text (u : Uuid) : u.text.toList.length ≤ 36 := by
  have hlen := u.length_digits
  simp only [text, String.toList_ofList, List.length_append, List.length_cons,
    List.length_take, List.length_drop, List.length_map, hlen]
  omega

/-- The driver reads the canonical text of an identifier back as that identifier. -/
@[simp] theorem parse?_text (u : Uuid) : parse? u.text = some u := by
  have hlen := u.length_digits
  have hsize : u.text.toList.length ≤ 36 := length_text u
  simp only [parse?, hsize, if_true, filter_text, mapM_hexDigit?, hlen, dif_pos]

theorem text_injective : Function.Injective text := by
  intro u v h
  have := congrArg parse? h
  simpa using this

end Uuid

/-! ### `uuid.UUID` -/

/-- The zeros of the decimal digit blocks of Unicode. -/
def decimalZeros : List Nat :=
  [0x30, 0x660, 0x6f0, 0x7c0, 0x966, 0x9e6, 0xa66, 0xae6, 0xb66, 0xbe6, 0xc66, 0xce6, 0xd66,
    0xde6, 0xe50, 0xed0, 0xf20, 0x1040, 0x1090, 0x17e0, 0x1810, 0x1946, 0x19d0, 0x1a80, 0x1a90,
    0x1b50, 0x1bb0, 0x1c40, 0x1c50, 0xa620, 0xa8d0, 0xa900, 0xa9d0, 0xa9f0, 0xaa50, 0xabf0,
    0xff10, 0x104a0, 0x10d30, 0x11066, 0x110f0, 0x11136, 0x111d0, 0x112f0, 0x11450, 0x114d0,
    0x11650, 0x116c0, 0x11730, 0x118e0, 0x11950, 0x11c50, 0x11d50, 0x11da0, 0x11f50, 0x16a60,
    0x16ac0, 0x16b50, 0x1d7ce, 0x1d7d8, 0x1d7e2, 0x1d7ec, 0x1d7f6, 0x1e140, 0x1e2f0, 0x1e4f0,
    0x1e950, 0x1fbf0]

/-- `str.isspace` for one character. -/
def isSpace (c : Char) : Bool :=
  let n := c.toNat
  (0x9 ≤ n && n ≤ 0xd) || (0x1c ≤ n && n ≤ 0x20) || n == 0x85 || n == 0xa0 || n == 0x1680 ||
    (0x2000 ≤ n && n ≤ 0x200a) || n == 0x2028 || n == 0x2029 || n == 0x202f || n == 0x205f ||
    n == 0x3000

/-- One character of a number that is read in base 16: every decimal digit of Unicode
counts, beside the ASCII letters. -/
def isHexDigit (c : Char) : Bool :=
  (Uuid.hexDigit? c).isSome || decimalZeros.any fun z => z ≤ c.toNat && c.toNat ≤ z + 9

/-- Digits with single underscores between them. -/
def hexBody : List Char → Bool
  | [] => false
  | [c] => isHexDigit c
  | c :: '_' :: cs => isHexDigit c && hexBody cs
  | c :: cs => isHexDigit c && hexBody cs

def dropSign : List Char → List Char
  | '+' :: rest => rest
  | '-' :: rest => rest
  | cs => cs

/-- The prefix `0x`, with the underscore that may follow it. -/
def dropHexPrefix : List Char → List Char
  | '0' :: 'x' :: '_' :: rest => rest
  | '0' :: 'X' :: '_' :: rest => rest
  | '0' :: 'x' :: rest => rest
  | '0' :: 'X' :: rest => rest
  | cs => cs

/-- Drop the characters with `p` at both ends. -/
def strip (p : Char → Bool) (cs : List Char) : List Char :=
  ((cs.dropWhile p).reverse.dropWhile p).reverse

/-- `int(s, 16)` does not raise: surrounding whitespace, a sign and the prefix `0x` are
accepted. -/
def intBase16Accepts (cs : List Char) : Bool :=
  hexBody (dropHexPrefix (dropSign (strip isSpace cs)))

/-- `str.replace(pattern, "")`, for a nonempty pattern; `skip` characters of a match are
still to be dropped. -/
def removeAll (pattern : List Char) : Nat → List Char → List Char
  | _, [] => []
  | skip + 1, _ :: cs => removeAll pattern skip cs
  | 0, c :: cs =>
    if pattern.isPrefixOf (c :: cs) then removeAll pattern (pattern.length - 1) cs
    else c :: removeAll pattern 0 cs

/-- `_is_valid_uuid`: `uuid.UUID(value)` does not raise. -/
def isValidUuid (value : String) : Bool :=
  let brace := fun c => c == '{' || c == '}'
  let plain := removeAll "uuid:".toList 0 (removeAll "urn:".toList 0 value.toList)
  let hex := (strip brace plain).filter (· != '-')
  hex.length == 32 && intBase16Accepts hex

/-! What the driver reads as an identifier is valid. -/

/-- What holds of the hexadecimal digits among the first 128 characters holds of all. -/
theorem of_hexDigit? {p : Char → Prop} {c : Char}
    (h : ∀ n < 128, (Uuid.hexDigit? (Char.ofNat n)).isSome = true → p (Char.ofNat n))
    (hc : (Uuid.hexDigit? c).isSome = true) : p c := by
  have hlt : c.toNat < 128 := by
    by_contra hge
    unfold Uuid.hexDigit? at hc
    simp only [Nat.not_lt] at hc hge
    split at hc
    · omega
    · split at hc
      · omega
      · split at hc
        · omega
        · cases hc
  have hn := h c.toNat hlt
  rw [Char.ofNat_toNat] at hn
  exact hn hc

theorem isHexDigit_of_hexDigit? {c : Char} (h : (Uuid.hexDigit? c).isSome = true) :
    isHexDigit c = true := by
  simp [isHexDigit, h]

theorem isSpace_of_hexDigit? {c : Char} (h : (Uuid.hexDigit? c).isSome = true) :
    isSpace c = false := of_hexDigit? (p := fun c => isSpace c = false) (by decide) h

theorem notMem_of_hexDigit? {c : Char} (h : (Uuid.hexDigit? c).isSome = true) :
    c ∉ ['+', '-', 'x', 'X', 'u', '{', '}'] :=
  of_hexDigit? (p := fun c => c ∉ ['+', '-', 'x', 'X', 'u', '{', '}']) (by decide) h

theorem removeAll_of_notMem {p : Char} {pattern cs : List Char} (h : p ∉ cs) :
    removeAll (p :: pattern) 0 cs = cs := by
  induction cs with
  | nil => rfl
  | cons c cs ih =>
    have hne : p ≠ c := fun he => h (he ▸ List.mem_cons_self)
    have hfalse : (p :: pattern).isPrefixOf (c :: cs) = false := by
      simp [List.isPrefixOf, hne]
    rw [removeAll, hfalse]
    simp only [Bool.false_eq_true, if_false, ih (fun hm => h (List.mem_cons_of_mem _ hm))]

theorem dropWhile_eq_self {p : Char → Bool} {cs : List Char} (h : ∀ c ∈ cs, p c = false) :
    cs.dropWhile p = cs := by
  cases cs with
  | nil => rfl
  | cons c cs => simp [List.dropWhile, h c List.mem_cons_self]

theorem strip_eq_self {p : Char → Bool} {cs : List Char} (h : ∀ c ∈ cs, p c = false) :
    strip p cs = cs := by
  rw [strip, dropWhile_eq_self h, dropWhile_eq_self (fun c hc => h c (List.mem_reverse.mp hc)),
    List.reverse_reverse]

theorem hexBody_of_forall : ∀ {cs : List Char}, cs ≠ [] → (∀ c ∈ cs, isHexDigit c = true) →
    hexBody cs = true
  | [], h, _ => absurd rfl h
  | [c], _, h => by simpa [hexBody] using h c List.mem_cons_self
  | c :: d :: cs, _, h => by
    have hd : d ≠ '_' := by
      rintro rfl
      exact absurd (h '_' (by simp)) (by decide)
    have hrest := hexBody_of_forall (List.cons_ne_nil d cs)
      (fun x hx => h x (List.mem_cons_of_mem _ hx))
    rw [hexBody]
    · simp [h c List.mem_cons_self, hrest]
    · exact List.cons_ne_nil _ _
    · intro cs' he
      exact hd (List.cons.inj he).1

theorem dropSign_eq_self {cs : List Char} (hp : '+' ∉ cs) (hm : '-' ∉ cs) :
    dropSign cs = cs := by
  unfold dropSign
  split
  · simp at hp
  · simp at hm
  · rfl

theorem dropHexPrefix_eq_self {cs : List Char} (hx : 'x' ∉ cs) (hX : 'X' ∉ cs) :
    dropHexPrefix cs = cs := by
  unfold dropHexPrefix
  split
  · simp at hx
  · simp at hX
  · simp at hx
  · simp at hX
  · rfl

theorem mem_of_mapM_hexDigit? {cs : List Char} {ds : List (Fin 16)}
    (h : cs.mapM Uuid.hexDigit? = some ds) :
    ds.length = cs.length ∧ ∀ c ∈ cs, (Uuid.hexDigit? c).isSome = true := by
  induction cs generalizing ds with
  | nil =>
    cases h
    exact ⟨rfl, nofun⟩
  | cons c cs ih =>
    simp only [List.mapM_cons, Option.bind_eq_bind, Option.bind_eq_some_iff, Option.pure_def,
      Option.some.injEq] at h
    obtain ⟨d, hd, es, hes, rfl⟩ := h
    obtain ⟨hlength, hall⟩ := ih hes
    refine ⟨by simp [hlength], fun x hx => ?_⟩
    rcases List.mem_cons.mp hx with rfl | hx
    · rw [hd]
      rfl
    · exact hall x hx

theorem intBase16Accepts_of_hexDigit? {cs : List Char} (hne : cs ≠ [])
    (h : ∀ c ∈ cs, (Uuid.hexDigit? c).isSome = true) : intBase16Accepts cs = true := by
  have hnot : ∀ c ∈ ['+', '-', 'x', 'X', 'u', '{', '}'], c ∉ cs := fun c hc hmem =>
    notMem_of_hexDigit? (h c hmem) hc
  rw [intBase16Accepts, strip_eq_self fun c hc => isSpace_of_hexDigit? (h c hc),
    dropSign_eq_self (hnot _ (by decide)) (hnot _ (by decide)),
    dropHexPrefix_eq_self (hnot _ (by decide)) (hnot _ (by decide))]
  exact hexBody_of_forall hne fun c hc => isHexDigit_of_hexDigit? (h c hc)

/-- What the driver reads as an identifier consists of hyphens and 32 digits. -/
theorem digits_of_parse? {value : String} {u : Uuid} (h : Uuid.parse? value = some u) :
    (value.toList.filter (· != '-')).length = 32 ∧
      ∀ c ∈ value.toList, c ≠ '-' → (Uuid.hexDigit? c).isSome = true := by
  unfold Uuid.parse? at h
  split at h
  swap
  · cases h
  split at h
  swap
  · cases h
  rename_i ds hds
  split at h
  swap
  · cases h
  rename_i hlength
  obtain ⟨hsame, hdigits⟩ := mem_of_mapM_hexDigit? hds
  exact ⟨hsame.symm.trans hlength, fun c hc hyphen =>
    hdigits c (List.mem_filter.mpr ⟨hc, by simpa using hyphen⟩)⟩

/-- `_is_valid_uuid` accepts every text that the driver reads as an identifier. -/
theorem isValidUuid_of_parse? {value : String} {u : Uuid} (h : Uuid.parse? value = some u) :
    isValidUuid value = true := by
  obtain ⟨hsize, hdigit⟩ := digits_of_parse? h
  have hu : 'u' ∉ value.toList := fun hmem =>
    absurd (hdigit 'u' hmem (by decide)) (by decide)
  have hbrace : ∀ c ∈ value.toList, (c == '{' || c == '}') = false := by
    intro c hc
    by_cases hyphen : c = '-'
    · rw [hyphen]
      rfl
    · have hnot := notMem_of_hexDigit? (hdigit c hc hyphen)
      simp only [List.mem_cons, not_or] at hnot
      simp [hnot]
  have hurn : removeAll "urn:".toList 0 value.toList = value.toList := removeAll_of_notMem hu
  have huuid : removeAll "uuid:".toList 0 value.toList = value.toList := removeAll_of_notMem hu
  have hne : value.toList.filter (· != '-') ≠ [] := by
    intro hnil
    rw [hnil] at hsize
    cases hsize
  have hdigits : ∀ c ∈ value.toList.filter (· != '-'), (Uuid.hexDigit? c).isSome = true := by
    intro c hc
    obtain ⟨hmem, hyphen⟩ := List.mem_filter.mp hc
    exact hdigit c hmem (by simpa using hyphen)
  simp only [isValidUuid, hurn, huuid, strip_eq_self hbrace, hsize,
    intBase16Accepts_of_hexDigit? hne hdigits, beq_self_eq_true, Bool.and_self]

/-- `_is_valid_uuid` accepts the canonical text of every identifier. -/
@[simp] theorem isValidUuid_text (u : Uuid) : isValidUuid u.text = true :=
  isValidUuid_of_parse? (Uuid.parse?_text u)

/-! ## Machines, attempts and probes -/

inductive WakeStrategy where
  | etherwake
  | udpBroadcast
deriving DecidableEq

def WakeStrategy.value : WakeStrategy → String
  | etherwake => "etherwake"
  | udpBroadcast => "udp_broadcast"

inductive AttemptStatus where
  | pending
  | sent
  | waking
  | online
  | failed
  | timeout
deriving DecidableEq

namespace AttemptStatus

def value : AttemptStatus → String
  | pending => "pending"
  | sent => "sent"
  | waking => "waking"
  | online => "online"
  | failed => "failed"
  | timeout => "timeout"

/-- The transition table of `can_transition_to`. -/
def transitions : AttemptStatus → List AttemptStatus
  | pending => [sent, failed]
  | sent => [waking, online, failed, timeout]
  | waking => [online, failed, timeout]
  | online => []
  | failed => []
  | timeout => []

def canTransitionTo (s next : AttemptStatus) : Bool := (transitions s).contains next

def isTerminal (s : AttemptStatus) : Bool := [online, failed, timeout].contains s

/-- `status.in_(["pending", "sent", "waking"])`. -/
def isActive (s : AttemptStatus) : Bool := [pending, sent, waking].contains s

/-- The terminal states are the states without a transition, and the states that do not
count as active. -/
theorem isTerminal_iff (s : AttemptStatus) :
    s.isTerminal = true ↔ (∀ next, s.canTransitionTo next = false) ∧ s.isActive = false := by
  cases s <;> simp [isTerminal, isActive, canTransitionTo, transitions]

end AttemptStatus

inductive JobStatus where
  | queued
  | running
  | done
  | error
deriving DecidableEq

inductive ProbeState where
  | online
  | offline
  | unknown
deriving DecidableEq

structure ProbeResult where
  pingOk : Bool
  tcpSshOk : Bool
deriving DecidableEq

def ProbeResult.derivedState (r : ProbeResult) : ProbeState :=
  if r.pingOk || r.tcpSshOk then .online else .offline

end WolMonkey
