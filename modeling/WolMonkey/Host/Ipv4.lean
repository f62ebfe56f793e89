import Mathlib.Algebra.Group.Nat.Defs
import WolMonkey.Model.System

/-!
# IPv4 addresses and the words of the kernel

An address is a number of 32 bits. Its text is the dotted quad of its octets, which
`inet_aton` reads back; the route table shows it as eight hexadecimal digits with the octets
in the other order. A mask of `n` bits compares the first `n` bits of two addresses.
-/

namespace WolMonkey

/-- An IPv4 address. -/
abbrev Ipv4 := BitVec 32

namespace Ipv4

/-- The dotted quad with these octets. -/
def dotted (a b c d : Nat) : List Char :=
  a.repr.toList ++ '.' :: (b.repr.toList ++ '.' :: (c.repr.toList ++ '.' :: d.repr.toList))

/-- The canonical text of an address. -/
def text (x : Ipv4) : List Char :=
  dotted (x.toNat / 16777216) (x.toNat / 65536 % 256) (x.toNat / 256 % 256) (x.toNat % 256)

/-- The number that the kernel prints for an address: its octets in the other order. -/
def littleEndian (x : Ipv4) : Nat := System.swapBytes x.toNat

/-- The mask with `n` leading ones. -/
def mask (n : Nat) : Ipv4 := BitVec.allOnes 32 <<< (32 - n)

/-- The first `n` bits are the same. -/
def Agrees (n : Nat) (x y : Ipv4) : Prop := ∀ i < n, x.getMsbD i = y.getMsbD i

instance (n : Nat) (x y : Ipv4) : Decidable (Agrees n x y) :=
  inferInstanceAs (Decidable (∀ i < n, x.getMsbD i = y.getMsbD i))

/-! ## Octets in decimal -/

theorem atonPart_repr {n : Nat} (h : n < 256) : System.atonPart n.repr.toList = some n := by
  have hall : ∀ n : Fin 256, System.atonPart n.val.repr.toList = some n.val := by decide +kernel
  exact hall ⟨n, h⟩

theorem dot_not_mem_repr (n : Nat) : '.' ∉ n.repr.toList := by
  intro hdot
  rw [Nat.repr, String.toList_ofList] at hdot
  have hdigit : Char.isDigit '.' = true :=
    Nat.isDigit_of_mem_toDigits (by decide) (by decide) hdot
  revert hdigit
  decide

theorem splitOn_dotted (a b c d : Nat) :
    (dotted a b c d).splitOn '.' = [a.repr.toList, b.repr.toList, c.repr.toList, d.repr.toList] := by
  have hparts : dotted a b c d =
      ['.'].intercalate [a.repr.toList, b.repr.toList, c.repr.toList, d.repr.toList] := by
    simp [dotted, List.intercalate, List.intersperse]
  rw [hparts]
  refine List.splitOn_intercalate '.' (fun part hpart => ?_) (by simp)
  simp only [List.mem_cons, List.not_mem_nil, or_false] at hpart
  rcases hpart with rfl | rfl | rfl | rfl
  · exact dot_not_mem_repr a
  · exact dot_not_mem_repr b
  · exact dot_not_mem_repr c
  · exact dot_not_mem_repr d

theorem octets_lt (x : Ipv4) : x.toNat / 16777216 < 256 ∧ x.toNat / 65536 % 256 < 256 ∧
    x.toNat / 256 % 256 < 256 ∧ x.toNat % 256 < 256 := by
  have hlt : x.toNat < 2 ^ 32 := x.isLt
  omega

theorem splitOn_text (x : Ipv4) :
    (text x).splitOn '.' = [(x.toNat / 16777216).repr.toList, (x.toNat / 65536 % 256).repr.toList,
      (x.toNat / 256 % 256).repr.toList, (x.toNat % 256).repr.toList] := by
  exact splitOn_dotted _ _ _ _

/-- `inet_aton` reads the text of an address back. -/
theorem inetAton_text (x : Ipv4) : System.inetAton (text x) = some x.toNat := by
  obtain ⟨ha, hb, hc, hd⟩ := octets_lt x
  unfold System.inetAton
  rw [splitOn_text]
  simp only [List.mapM_cons, List.mapM_nil, atonPart_repr ha, atonPart_repr hb, atonPart_repr hc,
    atonPart_repr hd, Option.bind_eq_bind, Option.bind_some, Option.pure_def, Option.some.injEq]
  omega

theorem text_injective : Function.Injective text := by
  intro x y h
  have hvalue := congrArg System.inetAton h
  rw [inetAton_text, inetAton_text] at hvalue
  exact BitVec.eq_of_toNat_eq (Option.some.inj hvalue)

/-! ## Masks -/

theorem getMsbD_mask (n i : Nat) (h : n ≤ 32) : (mask n).getMsbD i = decide (i < n) := by
  unfold mask
  rw [BitVec.getMsbD_shiftLeft]
  simp only [BitVec.getMsbD_allOnes]
  by_cases hi : i < n
  · rw [decide_eq_true hi, decide_eq_true_eq]
    omega
  · rw [decide_eq_false hi, decide_eq_false_iff_not]
    omega

/-- Comparing under a mask compares the first bits. -/
theorem and_mask_eq_iff {n : Nat} (h : n ≤ 32) (x y : Ipv4) :
    x &&& mask n = y &&& mask n ↔ Agrees n x y := by
  constructor
  · intro heq i hi
    have hbit := congrArg (fun z : Ipv4 => z.getMsbD i) heq
    simpa only [BitVec.getMsbD_and, getMsbD_mask n i h, decide_eq_true hi, Bool.and_true] using hbit
  · intro hagrees
    refine BitVec.eq_of_getMsbD_eq fun i _ => ?_
    rw [BitVec.getMsbD_and, BitVec.getMsbD_and, getMsbD_mask n i h]
    by_cases hi : i < n
    · rw [hagrees i hi]
    · rw [decide_eq_false hi, Bool.and_false, Bool.and_false]

theorem bitCount_mask {n : Nat} (h : n ≤ 32) : System.bitCount (mask n).toNat = n := by
  have hall : ∀ n : Fin 33, System.bitCount (mask n.val).toNat = n.val := by decide +kernel
  exact hall ⟨n, Nat.lt_succ_of_le h⟩

/-! ## Words -/

theorem swapBytes_lt (n : Nat) : System.swapBytes n < 4294967296 := by
  unfold System.swapBytes
  omega

theorem swapBytes_bytes {a b c d : Nat} (ha : a < 256) (hb : b < 256) (hc : c < 256) (hd : d < 256) :
    System.swapBytes (((a * 256 + b) * 256 + c) * 256 + d) = ((d * 256 + c) * 256 + b) * 256 + a := by
  unfold System.swapBytes
  have hfirst : (((a * 256 + b) * 256 + c) * 256 + d) / 16777216 % 256 = a := by omega
  have hsecond : (((a * 256 + b) * 256 + c) * 256 + d) / 65536 % 256 = b := by omega
  have hthird : (((a * 256 + b) * 256 + c) * 256 + d) / 256 % 256 = c := by omega
  have hfourth : (((a * 256 + b) * 256 + c) * 256 + d) % 256 = d := by omega
  rw [hfirst, hsecond, hthird, hfourth]
  omega

theorem swapBytes_swapBytes {n : Nat} (h : n < 4294967296) :
    System.swapBytes (System.swapBytes n) = n := by
  have hbytes : n = ((n / 16777216 * 256 + n / 65536 % 256) * 256 + n / 256 % 256) * 256 + n % 256 := by
    omega
  have ha : n / 16777216 < 256 := by omega
  have hb : n / 65536 % 256 < 256 := Nat.mod_lt _ (by decide)
  have hc : n / 256 % 256 < 256 := Nat.mod_lt _ (by decide)
  have hd : n % 256 < 256 := Nat.mod_lt _ (by decide)
  have hswap := swapBytes_bytes ha hb hc hd
  rw [← hbytes] at hswap
  rw [hswap, swapBytes_bytes hd hc hb ha, ← hbytes]

/-- A column with the number of an address. -/
theorem routeHexToBeInt_of_littleEndian {cs : List Char} {x : Ipv4}
    (h : System.pyIntBase16 cs = some (littleEndian x : Int)) :
    System.routeHexToBeInt cs = some x.toNat := by
  have hlt := swapBytes_lt x.toNat
  unfold System.routeHexToBeInt
  rw [h]
  dsimp only
  have hfits : (decide ((0 : Int) ≤ littleEndian x) && decide ((littleEndian x : Int) < 4294967296)) =
      true := by
    rw [Bool.and_eq_true, decide_eq_true_eq, decide_eq_true_eq]
    unfold littleEndian
    omega
  rw [if_pos hfits, Int.toNat_natCast]
  exact congrArg some (swapBytes_swapBytes x.isLt)

/-- The number that hexadecimal digits denote. -/
def ofDigits (ds : List (Fin 16)) : Nat := ds.foldl (fun n d => 16 * n + d.val) 0

theorem hexDigits_of_mapM {cs : List Char} {ds : List (Fin 16)} (hne : cs ≠ [])
    (h : cs.mapM Uuid.hexDigit? = some ds) : System.hexDigits cs = some (ds.map (·.val)) := by
  induction cs generalizing ds with
  | nil => exact absurd rfl hne
  | cons c cs ih =>
    simp only [List.mapM_cons, Option.bind_eq_bind, Option.bind_eq_some_iff, Option.pure_def,
      Option.some.injEq] at h
    obtain ⟨d, hd, es, hes, rfl⟩ := h
    have hvalue : System.hexValue? c = some d.val := by
      unfold System.hexValue?
      rw [hd]
    cases cs with
    | nil =>
      cases hes
      rw [System.hexDigits, hvalue]
      rfl
    | cons c' cs =>
      have hc' : c' ≠ '_' := by
        rintro rfl
        have hsome := (mem_of_mapM_hexDigit? hes).2 '_' List.mem_cons_self
        revert hsome
        decide
      rw [System.hexDigits]
      · rw [ih (List.cons_ne_nil _ _) hes, hvalue]
        rfl
      · exact List.cons_ne_nil _ _
      · intro cs' heq
        exact hc' (List.cons.inj heq).1

theorem foldl_digits (base : Nat) (ns : List Nat) (n : Nat) :
    (do let a ← ns; pure (a : Int) : List Int).foldl (fun n d => (base : Int) * n + d) (n : Int) =
      ((ns.foldl (fun n d => base * n + d) n : Nat) : Int) := by
  induction ns generalizing n with
  | nil => rfl
  | cons a ns ih => exact ih (base * n + a)

/-- Hexadecimal digits denote their number for `int(…, 16)`. -/
theorem pyIntBase16_of_digits {cs : List Char} {ds : List (Fin 16)} (hne : cs ≠ [])
    (h : cs.mapM Uuid.hexDigit? = some ds) :
    System.pyIntBase16 cs = some (ofDigits ds : Int) := by
  have hhex := (mem_of_mapM_hexDigit? h).2
  have hnot : ∀ c ∈ ['+', '-', 'x', 'X', 'u', '{', '}'], c ∉ cs := fun c hc hmem =>
    notMem_of_hexDigit? (hhex c hmem) hc
  have hstrip : strip isSpace cs = cs := strip_eq_self fun c hc => isSpace_of_hexDigit? (hhex c hc)
  have hsign : cs.head? ≠ some '-' := fun hhead =>
    hnot '-' (by decide) (List.mem_of_mem_head? hhead)
  unfold System.pyIntBase16
  dsimp only
  rw [hstrip, dropSign_eq_self (hnot _ (by decide)) (hnot _ (by decide)),
    dropHexPrefix_eq_self (hnot _ (by decide)) (hnot _ (by decide)), hexDigits_of_mapM hne h]
  simp only [Option.map_some, beq_iff_eq, hsign, if_false, Option.some.injEq, ofDigits]
  refine (foldl_digits 16 _ 0).trans ?_
  rw [List.foldl_map]

theorem ofDigits_append (ds : List (Fin 16)) (d : Fin 16) :
    ofDigits (ds ++ [d]) = 16 * ofDigits ds + d.val := by
  unfold ofDigits
  rw [List.foldl_append]
  rfl

theorem ofDigits_digitsOfNat (k n : Nat) : ofDigits (Uuid.digitsOfNat k n) = n % 16 ^ k := by
  induction k generalizing n with
  | zero => exact (Nat.mod_one n).symm
  | succ k ih =>
    rw [Uuid.digitsOfNat, ofDigits_append, ih, Nat.pow_succ', Nat.mod_mul]
    exact Nat.add_comm _ _

/-- The eight digits that the kernel prints for an address, in either case. -/
def HexWord (x : Ipv4) (cs : List Char) : Prop :=
  cs.mapM Uuid.hexDigit? = some (Uuid.digitsOfNat 8 (littleEndian x))

instance (x : Ipv4) (cs : List Char) : Decidable (HexWord x cs) :=
  inferInstanceAs (Decidable (_ = _))

theorem pyIntBase16_hexWord {x : Ipv4} {cs : List Char} (h : HexWord x cs) :
    System.pyIntBase16 cs = some (littleEndian x : Int) := by
  have hne : cs ≠ [] := by
    rintro rfl
    have hlength := congrArg (Option.map List.length) h
    rw [Option.map_some, Uuid.length_digitsOfNat] at hlength
    cases hlength
  rw [pyIntBase16_of_digits hne h, ofDigits_digitsOfNat]
  exact congrArg (fun n : Nat => some (n : Int)) (Nat.mod_eq_of_lt (swapBytes_lt x.toNat))

end Ipv4

end WolMonkey
