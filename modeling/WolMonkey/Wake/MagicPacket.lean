import WolMonkey.Facts.Execution
import WolMonkey.Model.Packets

/-!
# The magic packet encoder

`_build_magic_packet` counts the characters that are left without separators and has the
rest decided by `bytes.fromhex`. A text of twelve hexadecimal digits gives its packet
(`buildMagicPacket_of_denotes`). The encoder is exact but for the texts that are `Lenient`:
pairs of digits with blanks between them that come to twelve characters, and texts with the
ligature of two letters f, which becomes two digits in upper case.
-/

namespace WolMonkey

/-! ## Addresses -/

/-- The two digits of an octet. -/
def Byte.digits (b : Byte) : List (Fin 16) :=
  [⟨b.val / 16, by omega⟩, ⟨b.val % 16, Nat.mod_lt _ (by decide)⟩]

/-- Without separators the text is the twelve digits of six octets. -/
def Denotes (mac : String) (octets : List Byte) : Prop :=
  octets.length = 6 ∧
    (withoutSeparators mac).mapM Uuid.hexDigit? = some (octets.flatMap Byte.digits)

theorem octet_digits (b : Byte) :
    octet ⟨b.val / 16, by omega⟩ ⟨b.val % 16, Nat.mod_lt _ (by decide)⟩ = b := by
  apply Fin.ext
  simp only [octet]
  omega

theorem digits_octet (hi lo : Fin 16) : (octet hi lo).digits = [hi, lo] := by
  have hhi : (16 * hi.val + lo.val) / 16 = hi.val := by omega
  have hlo : (16 * hi.val + lo.val) % 16 = lo.val := by omega
  simp only [Byte.digits, octet, hhi, hlo, Fin.eta]

theorem flatMap_digits_injective {xs ys : List Byte}
    (h : xs.flatMap Byte.digits = ys.flatMap Byte.digits) : xs = ys := by
  induction xs generalizing ys with
  | nil =>
    cases ys with
    | nil => rfl
    | cons y ys => cases h
  | cons x xs ih =>
    cases ys with
    | nil => cases h
    | cons y ys =>
      simp only [List.flatMap_cons, Byte.digits, List.cons_append, List.nil_append,
        List.cons.injEq, Fin.mk.injEq] at h
      obtain ⟨hhi, hlo, hrest⟩ := h
      have hxy : x = y := Fin.ext (by omega)
      rw [hxy, ih hrest]

/-- An address denotes at most one list of octets. -/
theorem Denotes.unique {mac : String} {xs ys : List Byte} (h : Denotes mac xs)
    (h' : Denotes mac ys) : xs = ys :=
  flatMap_digits_injective (Option.some.inj (h.2.symm.trans h'.2))

/-- Digits in even number are the digits of octets. -/
theorem exists_octets : ∀ (n : Nat) (ds : List (Fin 16)), ds.length = 2 * n →
    ∃ octets : List Byte, octets.length = n ∧ ds = octets.flatMap Byte.digits
  | 0, ds, h => ⟨[], rfl, List.length_eq_zero_iff.mp h⟩
  | n + 1, [], h => by simp at h
  | n + 1, [d], h => by
    simp only [List.length_singleton] at h
    omega
  | n + 1, hi :: lo :: ds, h => by
    have hrest : ds.length = 2 * n := by
      simp only [List.length_cons] at h
      omega
    obtain ⟨octets, hlength, rfl⟩ := exists_octets n ds hrest
    exact ⟨octet hi lo :: octets, by simp [hlength], by simp [digits_octet]⟩

theorem isHex_eq_true {c : Char} : isHex c = true ↔ ∃ d, Uuid.hexDigit? c = some d :=
  Option.isSome_iff_exists

theorem exists_mapM_hexDigit? {cs : List Char} (h : ∀ c ∈ cs, isHex c = true) :
    ∃ ds, cs.mapM Uuid.hexDigit? = some ds := by
  induction cs with
  | nil => exact ⟨[], rfl⟩
  | cons c cs ih =>
    obtain ⟨d, hd⟩ := isHex_eq_true.mp (h c List.mem_cons_self)
    obtain ⟨ds, hds⟩ := ih fun x hx => h x (List.mem_cons_of_mem _ hx)
    exact ⟨d :: ds, by simp [hd, hds]⟩

/-- A text denotes an address when it consists of twelve digits without its separators. -/
theorem exists_denotes {mac : String} :
    (∃ octets, Denotes mac octets) ↔
      (withoutSeparators mac).length = 12 ∧ ∀ c ∈ withoutSeparators mac, isHex c = true := by
  constructor
  · rintro ⟨octets, hlength, hdigits⟩
    obtain ⟨hsame, hhex⟩ := mem_of_mapM_hexDigit? hdigits
    refine ⟨?_, hhex⟩
    rw [← hsame]
    simp [Byte.digits, hlength]
  · rintro ⟨hlength, hhex⟩
    obtain ⟨ds, hds⟩ := exists_mapM_hexDigit? hhex
    have hsame := (mem_of_mapM_hexDigit? hds).1
    obtain ⟨octets, hsix, rfl⟩ := exists_octets 6 ds (hsame.trans hlength)
    exact ⟨octets, hsix, hds⟩

/-! ## Decoding -/

/-- Blanks and pairs of hexadecimal digits, in any order. -/
def pairsAndBlanks : List Char → Bool
  | [] => true
  | [c] => isBlank c
  | c :: d :: rest =>
    if isBlank c then pairsAndBlanks (d :: rest) else isHex c && isHex d && pairsAndBlanks rest

theorem isHex_of_isBlank {c : Char} (h : isBlank c = true) : isHex c = false := by
  cases hhex : isHex c with
  | false => rfl
  | true =>
    have hnot := of_hexDigit? (p := fun c => isBlank c = false) (by decide) hhex
    rw [h] at hnot
    cases hnot

/-- Whatever is no digit and no blank spoils the text. -/
theorem isHex_or_isBlank_of_pairsAndBlanks {cs : List Char} (h : pairsAndBlanks cs = true) :
    ∀ c ∈ cs, isHex c = true ∨ isBlank c = true := by
  fun_induction pairsAndBlanks cs with
  | case1 => nofun
  | case2 c =>
    intro x hx
    rw [List.mem_singleton.mp hx]
    exact .inr h
  | case3 c d rest hblank ih =>
    intro x hx
    rcases List.mem_cons.mp hx with rfl | hx
    · exact .inr hblank
    · exact ih h x hx
  | case4 c d rest hblank ih =>
    simp only [Bool.and_eq_true] at h
    intro x hx
    simp only [List.mem_cons] at hx
    rcases hx with rfl | rfl | hx
    · exact .inl h.1.1
    · exact .inl h.1.2
    · exact ih h.2 x hx

/-- The loop of `bytes.fromhex` ends without an error on such texts, and on no others. -/
theorem hexPairs_ok_iff (pos : Nat) {cs : List Char} :
    (∃ bytes, hexPairs pos cs = .ok bytes) ↔ pairsAndBlanks cs = true := by
  fun_induction pairsAndBlanks cs generalizing pos with
  | case1 => simp [hexPairs]
  | case2 c =>
    simp only [hexPairs]
    cases hblank : isBlank c with
    | true => simp
    | false => cases isHex c <;> simp
  | case3 c d rest hblank ih =>
    simp only [hexPairs, hblank, if_true]
    exact ih _
  | case4 c d rest hblank ih =>
    simp only [hexPairs, hblank, isHex]
    cases hc : Uuid.hexDigit? c with
    | none => simp
    | some hi =>
      cases hd : Uuid.hexDigit? d with
      | none => simp
      | some lo =>
        simp only [Option.isSome_some, Bool.and_true, Bool.true_and, Bool.false_eq_true,
          if_false]
        rw [← ih]
        constructor
        · rintro ⟨bytes, h⟩
          obtain ⟨tail, htail, -⟩ := bind_eq_ok.mp h
          exact ⟨tail, htail⟩
        · rintro ⟨tail, htail⟩
          exact ⟨octet hi lo :: tail, bind_eq_ok.mpr ⟨tail, htail, rfl⟩⟩

/-- The digits of octets are read back. -/
theorem hexPairs_digits {cs : List Char} {octets : List Byte} {pos : Nat}
    (h : cs.mapM Uuid.hexDigit? = some (octets.flatMap Byte.digits)) :
    hexPairs pos cs = .ok octets := by
  induction octets generalizing cs pos with
  | nil =>
    have hlength := (mem_of_mapM_hexDigit? h).1
    rw [List.length_eq_zero_iff.mp hlength.symm]
    rfl
  | cons b octets ih =>
    have hlength := (mem_of_mapM_hexDigit? h).1
    match cs with
    | [] => simp [Byte.digits] at hlength
    | [c] => simp [Byte.digits] at hlength
    | c :: d :: rest =>
      simp only [List.mapM_cons, Option.bind_eq_bind, Option.bind_eq_some_iff, Option.pure_def,
        Option.some.injEq, List.flatMap_cons, Byte.digits, List.cons_append, List.nil_append,
        List.cons.injEq] at h
      obtain ⟨hi, hc, ds, ⟨lo, hd, es, hrest, rfl⟩, rfl, rfl, rfl⟩ := h
      have hblank : isBlank c = false := by
        cases hblank : isBlank c with
        | false => rfl
        | true =>
          have hnot := isHex_of_isBlank hblank
          rw [isHex, hc] at hnot
          cases hnot
      simp only [hexPairs, hblank, hc, hd, Bool.false_eq_true, if_false, ih hrest, octet_digits]
      rfl

/-! ## Upper case -/

/-- The text with the ligature written as two letters. -/
def spellOut (cs : List Char) : List Char := cs.flatMap fun c => if c = 'ﬀ' then ['f', 'f'] else [c]

theorem isHex_toUpper {c : Char} (h : c.toNat < 128) : isHex c.toUpper = isHex c := by
  have hall : ∀ n < 128, isHex (Char.ofNat n).toUpper = isHex (Char.ofNat n) := by decide
  have hc := hall c.toNat h
  rwa [Char.ofNat_toNat] at hc

theorem isBlank_toUpper {c : Char} (h : c.toNat < 128) : isBlank c.toUpper = isBlank c := by
  have hall : ∀ n < 128, isBlank (Char.ofNat n).toUpper = isBlank (Char.ofNat n) := by decide
  have hc := hall c.toNat h
  rwa [Char.ofNat_toNat] at hc

theorem ascii_of_isHex {c : Char} (h : isHex c = true) : c.toNat < 128 :=
  of_hexDigit? (p := fun c => c.toNat < 128) (by decide) h

theorem ascii_of_isBlank {c : Char} (h : isBlank c = true) : c.toNat < 128 := by
  simp only [isBlank, Bool.or_eq_true, beq_iff_eq, Bool.and_eq_true, decide_eq_true_eq] at h
  rcases h with rfl | h
  · decide
  · omega

/-- Only the kinds of the characters matter. -/
theorem pairsAndBlanks_map {cs : List Char} {f : Char → Char}
    (hhex : ∀ c ∈ cs, isHex (f c) = isHex c) (hblank : ∀ c ∈ cs, isBlank (f c) = isBlank c) :
    pairsAndBlanks (cs.map f) = pairsAndBlanks cs := by
  fun_induction pairsAndBlanks cs with
  | case1 => rfl
  | case2 c => exact hblank c (by simp)
  | case3 c d rest hc ih =>
    have hfc : isBlank (f c) = true := (hblank c (by simp)).trans hc
    simp only [List.map_cons, pairsAndBlanks, hfc, if_true]
    exact ih (fun x hx => hhex x (by simp [List.mem_cons.mp hx]))
      (fun x hx => hblank x (by simp [List.mem_cons.mp hx]))
  | case4 c d rest hc ih =>
    have hfc : isBlank (f c) = false := (hblank c (by simp)).trans (Bool.not_eq_true _ ▸ hc)
    simp only [List.map_cons, pairsAndBlanks, hfc, Bool.false_eq_true, if_false,
      hhex c (by simp), hhex d (by simp)]
    rw [ih (fun x hx => hhex x (by simp [hx])) (fun x hx => hblank x (by simp [hx]))]

section Upper
variable (T : UpperTable)

/-- ASCII characters and the ligature become the upper-case letters of the spelt-out text. -/
theorem pyUpper_eq_map {cs : List Char} (h : ∀ c ∈ cs, c.toNat < 128 ∨ c = 'ﬀ') :
    pyUpper T cs = (spellOut cs).map Char.toUpper := by
  induction cs with
  | nil => rfl
  | cons c cs ih =>
    have hrest := ih fun x hx => h x (List.mem_cons_of_mem _ hx)
    simp only [pyUpper, spellOut, List.flatMap_cons, List.map_append] at hrest ⊢
    rw [hrest]
    congr 1
    rcases h c List.mem_cons_self with hascii | rfl
    · have hne : c ≠ 'ﬀ' := by
        rintro rfl
        exact absurd hascii (by decide)
      simp [hascii, hne]
    · have hfar : ¬ ('ﬀ' : Char).toNat < 128 := by decide
      rw [if_neg hfar, T.ligature]
      decide

theorem ascii_spellOut {cs : List Char} (h : ∀ c ∈ cs, c.toNat < 128 ∨ c = 'ﬀ') :
    ∀ c ∈ spellOut cs, c.toNat < 128 := by
  intro c hc
  obtain ⟨x, hx, hmem⟩ := List.mem_flatMap.mp hc
  by_cases hlig : x = 'ﬀ'
  · rw [if_pos hlig] at hmem
    simp only [List.mem_cons, List.not_mem_nil, or_false, or_self] at hmem
    rw [hmem]
    decide
  · rw [if_neg hlig] at hmem
    rw [List.mem_singleton.mp hmem]
    exact (h x hx).resolve_right hlig

/-- Upper case makes digits of digits and of the ligature, and of nothing else. -/
theorem pairsAndBlanks_pyUpper (cs : List Char) :
    pairsAndBlanks (pyUpper T cs) = pairsAndBlanks (spellOut cs) := by
  by_cases h : ∀ c ∈ cs, c.toNat < 128 ∨ c = 'ﬀ'
  · rw [pyUpper_eq_map T h]
    have hascii := ascii_spellOut h
    exact pairsAndBlanks_map (fun c hc => isHex_toUpper (hascii c hc))
      (fun c hc => isBlank_toUpper (hascii c hc))
  · push Not at h
    obtain ⟨c, hc, hnot, hlig⟩ := h
    have hfar : 128 ≤ c.toNat := by omega
    have hupper : pairsAndBlanks (pyUpper T cs) = false := by
      rw [← Bool.not_eq_true]
      intro hpairs
      obtain ⟨d, hd, hhex, hblank⟩ := T.other c hfar hlig
      have hmem : d ∈ pyUpper T cs := by
        refine List.mem_flatMap.mpr ⟨c, hc, ?_⟩
        rwa [if_neg (Nat.not_lt.mpr hfar)]
      rcases isHex_or_isBlank_of_pairsAndBlanks hpairs d hmem with h | h
      · rw [hhex] at h
        cases h
      · rw [hblank] at h
        cases h
    have hspelt : pairsAndBlanks (spellOut cs) = false := by
      rw [← Bool.not_eq_true]
      intro hpairs
      have hmem : c ∈ spellOut cs := List.mem_flatMap.mpr ⟨c, hc, by simp [hlig]⟩
      rcases isHex_or_isBlank_of_pairsAndBlanks hpairs c hmem with h | h
      · exact absurd (ascii_of_isHex h) (Nat.not_lt.mpr hfar)
      · exact absurd (ascii_of_isBlank h) (Nat.not_lt.mpr hfar)
    rw [hupper, hspelt]

theorem length_pyUpper {cs : List Char} (h : pairsAndBlanks (spellOut cs) = true) :
    (pyUpper T cs).length = (spellOut cs).length := by
  have hknown : ∀ c ∈ cs, c.toNat < 128 ∨ c = 'ﬀ' := by
    intro c hc
    by_cases hlig : c = 'ﬀ'
    · exact .inr hlig
    · have hmem : c ∈ spellOut cs := List.mem_flatMap.mpr ⟨c, hc, by simp [hlig]⟩
      rcases isHex_or_isBlank_of_pairsAndBlanks h c hmem with h | h
      · exact .inl (ascii_of_isHex h)
      · exact .inl (ascii_of_isBlank h)
  rw [pyUpper_eq_map T hknown, List.length_map]

end Upper

/-! ## The encoder -/

section Encoder
variable (P : Platform) (T : UpperTable) {mac : String}

theorem fromHex_ok_iff {cs : List Char} :
    (∃ bytes, fromHex cs = .ok bytes) ↔ pairsAndBlanks cs = true := by
  unfold fromHex
  cases hfar : cs.findIdx? fun c => 128 ≤ c.toNat with
  | some pos =>
    obtain ⟨c, hc, hnot⟩ : ∃ c ∈ cs, 128 ≤ c.toNat := by
      have hsome : (cs.findIdx? fun c => 128 ≤ c.toNat).isSome = true := by rw [hfar]; rfl
      simpa using hsome
    refine ⟨fun ⟨_, h⟩ => (nomatch h), fun hpairs => ?_⟩
    rcases isHex_or_isBlank_of_pairsAndBlanks hpairs c hc with h | h
    · exact absurd (ascii_of_isHex h) (Nat.not_lt.mpr hnot)
    · exact absurd (ascii_of_isBlank h) (Nat.not_lt.mpr hnot)
  | none =>
    dsimp only
    rw [← hexPairs_ok_iff 0]
    cases hexPairs 0 cs with
    | ok bytes => simp [Except.mapError]
    | error pos => simp [Except.mapError]

/-- The encoder raises nothing but `ValueError`. -/
theorem buildMagicPacket_error {e : PyExc} (h : buildMagicPacket P T mac = .error e) :
    ∃ message, e = .value message := by
  unfold buildMagicPacket at h
  dsimp only at h
  split at h
  · cases h
    exact ⟨_, rfl⟩
  · unfold fromHex at h
    split at h
    · cases h
      exact ⟨_, rfl⟩
    · cases hpairs : hexPairs 0 (pyUpper T (withoutSeparators mac)) with
      | ok bytes =>
        rw [hpairs] at h
        cases h
      | error pos =>
        rw [hpairs] at h
        cases h
        exact ⟨_, rfl⟩

/-- Which texts the encoder accepts. -/
theorem buildMagicPacket_ok_iff :
    (∃ packet, buildMagicPacket P T mac = .ok packet) ↔
      pairsAndBlanks (spellOut (withoutSeparators mac)) = true ∧
        (spellOut (withoutSeparators mac)).length = 12 := by
  unfold buildMagicPacket
  dsimp only
  constructor
  · rintro ⟨packet, h⟩
    split at h
    · cases h
    · rename_i hlength
      obtain ⟨bytes, hbytes, -⟩ := bind_eq_ok.mp h
      have hpairs := fromHex_ok_iff.mp ⟨bytes, hbytes⟩
      rw [pairsAndBlanks_pyUpper] at hpairs
      refine ⟨hpairs, ?_⟩
      rw [← length_pyUpper T hpairs]
      exact Decidable.not_not.mp hlength
  · rintro ⟨hpairs, hlength⟩
    have htwelve := (length_pyUpper T hpairs).trans hlength
    rw [← pairsAndBlanks_pyUpper T] at hpairs
    obtain ⟨bytes, hbytes⟩ := fromHex_ok_iff.mpr hpairs
    refine ⟨magicPacket bytes, ?_⟩
    rw [if_neg (fun hne => hne htwelve), hbytes]
    rfl

theorem hexDigit?_toUpper {c : Char} (h : c.toNat < 128) :
    Uuid.hexDigit? c.toUpper = Uuid.hexDigit? c := by
  have hall : ∀ n < 128, Uuid.hexDigit? (Char.ofNat n).toUpper = Uuid.hexDigit? (Char.ofNat n) := by
    decide
  have hc := hall c.toNat h
  rwa [Char.ofNat_toNat] at hc

theorem mapM_hexDigit?_toUpper {cs : List Char} (h : ∀ c ∈ cs, c.toNat < 128) :
    (cs.map Char.toUpper).mapM Uuid.hexDigit? = cs.mapM Uuid.hexDigit? := by
  induction cs with
  | nil => rfl
  | cons c cs ih =>
    rw [List.map_cons, List.mapM_cons, List.mapM_cons, hexDigit?_toUpper (h c List.mem_cons_self),
      ih fun x hx => h x (List.mem_cons_of_mem _ hx)]

theorem spellOut_eq_self {cs : List Char} (h : 'ﬀ' ∉ cs) : spellOut cs = cs := by
  induction cs with
  | nil => rfl
  | cons c cs ih =>
    have hne : c ≠ 'ﬀ' := fun he => h (he ▸ List.mem_cons_self)
    have hrest : spellOut cs = cs := ih fun hmem => h (List.mem_cons_of_mem _ hmem)
    simp only [spellOut, List.flatMap_cons, if_neg hne] at hrest ⊢
    rw [hrest]
    rfl

/-- The address of six octets gives their packet. -/
theorem buildMagicPacket_of_denotes {octets : List Byte} (h : Denotes mac octets) :
    buildMagicPacket P T mac = .ok (magicPacket octets) := by
  obtain ⟨hlength, hhex⟩ := exists_denotes.mp ⟨octets, h⟩
  have hascii : ∀ c ∈ withoutSeparators mac, c.toNat < 128 := fun c hc => ascii_of_isHex (hhex c hc)
  have hlig : 'ﬀ' ∉ withoutSeparators mac := fun hmem => absurd (hascii _ hmem) (by decide)
  have hupper : pyUpper T (withoutSeparators mac) = (withoutSeparators mac).map Char.toUpper := by
    rw [pyUpper_eq_map T fun c hc => .inl (hascii c hc), spellOut_eq_self hlig]
  have hdigits : ((withoutSeparators mac).map Char.toUpper).mapM Uuid.hexDigit? =
      some (octets.flatMap Byte.digits) := by
    rw [mapM_hexDigit?_toUpper hascii]
    exact h.2
  have hnear : ((withoutSeparators mac).map Char.toUpper).findIdx? (fun c => 128 ≤ c.toNat) = none := by
    refine List.findIdx?_eq_none_iff.mpr fun c hc => ?_
    obtain ⟨d, hd⟩ := isHex_eq_true.mp ((mem_of_mapM_hexDigit? hdigits).2 c hc)
    have hnot := ascii_of_isHex (isHex_eq_true.mpr ⟨d, hd⟩)
    simpa using hnot
  have hread : fromHex ((withoutSeparators mac).map Char.toUpper) = .ok octets := by
    rw [fromHex, hnear, hexPairs_digits hdigits]
    rfl
  simp only [buildMagicPacket, hupper, hread, List.length_map, hlength]
  rfl

end Encoder

@[simp] theorem length_magicPacket (octets : List Byte) :
    (magicPacket octets).length = 6 + 16 * octets.length := by
  simp only [magicPacket, List.length_append, List.length_replicate, List.length_flatten,
    List.map_replicate, List.sum_replicate_nat]

theorem magicPacket_injective {xs ys : List Byte} (hxs : xs.length = 6) (hys : ys.length = 6)
    (h : magicPacket xs = magicPacket ys) : xs = ys := by
  have hxs' : ((magicPacket xs).drop 6).take 6 = xs := by
    simp [magicPacket, List.replicate_succ, ← hxs]
  have hys' : ((magicPacket ys).drop 6).take 6 = ys := by
    simp [magicPacket, List.replicate_succ, ← hys]
  rw [← hxs', h, hys']

/-! ## Exactness -/

section Exactness
variable (P : Platform) (T : UpperTable)

/-- The encoder treats the text as an address or raises `ValueError`, and what it returns is a
packet of 102 bytes that only the texts of one address have. -/
structure EncodesExactly (mac : String) : Prop where
  encodes : ∀ octets, Denotes mac octets → buildMagicPacket P T mac = .ok (magicPacket octets)
  rejects : (∀ octets, ¬ Denotes mac octets) →
    ∃ message, buildMagicPacket P T mac = .error (.value message)
  length : ∀ packet, buildMagicPacket P T mac = .ok packet → packet.length = 102
  determines : ∀ packet, buildMagicPacket P T mac = .ok packet →
    ∃ octets, Denotes mac octets ∧
      ∀ mac' octets', Denotes mac' octets' → buildMagicPacket P T mac' = .ok packet →
        octets' = octets

/-- Without separators the text has blanks between pairs of digits, or the ligature among
them, and still comes to twelve characters. -/
def Lenient (mac : String) : Prop :=
  pairsAndBlanks (spellOut (withoutSeparators mac)) = true ∧
    (spellOut (withoutSeparators mac)).length = 12 ∧
    ∃ c ∈ withoutSeparators mac, isBlank c = true ∨ c = 'ﬀ'

instance (mac : String) : Decidable (Lenient mac) :=
  have : Decidable (∃ c ∈ withoutSeparators mac, isBlank c = true ∨ c = 'ﬀ') :=
    List.decidableBEx _ _
  inferInstanceAs (Decidable (_ ∧ _ ∧ _))

/-- A text that is accepted without being lenient denotes an address. -/
theorem exists_denotes_of_not_lenient {mac : String} {packet : List Byte} (h : ¬ Lenient mac)
    (hok : buildMagicPacket P T mac = .ok packet) : ∃ octets, Denotes mac octets := by
  obtain ⟨hpairs, hlength⟩ := (buildMagicPacket_ok_iff P T).mp ⟨packet, hok⟩
  have hplain : ∀ c ∈ withoutSeparators mac, isBlank c = false ∧ c ≠ 'ﬀ' := by
    intro c hc
    constructor
    · rw [← Bool.not_eq_true]
      exact fun hblank => h ⟨hpairs, hlength, c, hc, .inl hblank⟩
    · exact fun hlig => h ⟨hpairs, hlength, c, hc, .inr hlig⟩
  have hself : spellOut (withoutSeparators mac) = withoutSeparators mac :=
    spellOut_eq_self fun hmem => (hplain _ hmem).2 rfl
  rw [hself] at hpairs hlength
  refine exists_denotes.mpr ⟨hlength, fun c hc => ?_⟩
  refine (isHex_or_isBlank_of_pairsAndBlanks hpairs c hc).resolve_right ?_
  rw [(hplain c hc).1]
  exact Bool.false_ne_true

/-- A lenient text denotes no address. -/
theorem not_denotes_of_lenient {mac : String} (h : Lenient mac) (octets : List Byte) :
    ¬ Denotes mac octets := by
  intro hdenotes
  obtain ⟨c, hc, hspecial⟩ := h.2.2
  have hhex := (exists_denotes.mp ⟨octets, hdenotes⟩).2 c hc
  rcases hspecial with hblank | rfl
  · rw [isHex_of_isBlank hblank] at hhex
    cases hhex
  · revert hhex
    decide

/-- The encoder is exact on a text if and only if the text is not lenient. -/
theorem encodesExactly_iff (mac : String) : EncodesExactly P T mac ↔ ¬ Lenient mac := by
  constructor
  · intro h hlenient
    obtain ⟨packet, hok⟩ := (buildMagicPacket_ok_iff P T).mpr ⟨hlenient.1, hlenient.2.1⟩
    obtain ⟨message, herror⟩ := h.rejects (not_denotes_of_lenient hlenient)
    rw [hok] at herror
    cases herror
  · intro h
    refine ⟨fun octets => buildMagicPacket_of_denotes P T, fun hnone => ?_, fun packet hok => ?_,
      fun packet hok => ?_⟩
    · cases hbuild : buildMagicPacket P T mac with
      | ok packet =>
        obtain ⟨octets, hdenotes⟩ := exists_denotes_of_not_lenient P T h hbuild
        exact (hnone octets hdenotes).elim
      | error e =>
        obtain ⟨message, rfl⟩ := buildMagicPacket_error P T hbuild
        exact ⟨message, rfl⟩
    · obtain ⟨octets, hdenotes⟩ := exists_denotes_of_not_lenient P T h hok
      rw [buildMagicPacket_of_denotes P T hdenotes] at hok
      cases hok
      rw [length_magicPacket, hdenotes.1]
    · obtain ⟨octets, hdenotes⟩ := exists_denotes_of_not_lenient P T h hok
      refine ⟨octets, hdenotes, fun mac' octets' hdenotes' hok' => ?_⟩
      rw [buildMagicPacket_of_denotes P T hdenotes] at hok
      rw [buildMagicPacket_of_denotes P T hdenotes', ← hok] at hok'
      exact magicPacket_injective hdenotes'.1 hdenotes.1 (Except.ok.inj hok')

end Exactness

/-- A table with the ligature; the other characters stay as they are. -/
def UpperTable.sample : UpperTable where
  upper c := if c = 'ﬀ' then ['F', 'F'] else [c]
  ligature := rfl
  other := by
    intro c hfar hne
    refine ⟨c, by simp [hne], ?_, ?_⟩
    · rw [← Bool.not_eq_true]
      exact fun hhex => absurd (ascii_of_isHex hhex) (Nat.not_lt.mpr hfar)
    · rw [← Bool.not_eq_true]
      exact fun hblank => absurd (ascii_of_isBlank hblank) (Nat.not_lt.mpr hfar)

/-- Four octets with blanks after them are taken for an address. -/
theorem not_encodesExactly_blanks :
    ¬ ∀ mac, EncodesExactly Platform.sample UpperTable.sample mac := by
  intro h
  have hlength := (h "AA BB CC DD ").length _ (by rfl)
  revert hlength
  decide

end WolMonkey
