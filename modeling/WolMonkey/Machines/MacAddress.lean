import WolMonkey.Wake.MagicPacket

/-!
# The MAC address of a new machine

`MachineCreate` checks the length of `mac_address` before `_validate_mac` matches its
expression, so the final newline that `$` lets through never gets there. What is accepted
are six groups of two hexadecimal digits with colons between them, and what is stored is
the lower-case text of their octets, which the encoder of magic packets reads back.
-/

namespace WolMonkey

/-- The constraints of the field `mac_address` of `MachineCreate`: its length, and then
`_validate_mac`. -/
def macAddressField (v : String) : Option String :=
  if lengthIn v 17 17 then validateMac v else none

/-! ## Groups of digits -/

/-- The groups with colons between them. -/
def colonJoined : List (Char × Char) → List Char
  | [] => []
  | [g] => [g.1, g.2]
  | g :: h :: rest => g.1 :: g.2 :: ':' :: colonJoined (h :: rest)

/-- Six two-digit groups with colons between them and nothing else. -/
def IsMac (v : String) : Prop :=
  ∃ groups, groups.length = 6 ∧ (∀ g ∈ groups, isHex g.1 = true ∧ isHex g.2 = true) ∧
    v.toList = colonJoined groups

theorem length_colonJoined {groups : List (Char × Char)} {n : Nat} (h : groups.length = n + 1) :
    (colonJoined groups).length = 3 * n + 2 := by
  fun_induction colonJoined groups generalizing n with
  | case1 => cases h
  | case2 g =>
    cases h
    rfl
  | case3 g h' rest ih =>
    obtain ⟨m, rfl⟩ : ∃ m, n = m + 1 := ⟨rest.length, by simpa using h.symm⟩
    have hrest := ih (n := m) (by simpa using h)
    simp only [List.length_cons] at hrest ⊢
    omega

/-- Without a final newline the expression matches the joined groups, and nothing else. -/
theorem macGroups_iff {n : Nat} {cs : List Char} (hlength : cs.length = 3 * n + 2) :
    macGroups n cs = true ↔
      ∃ groups, groups.length = n + 1 ∧ (∀ g ∈ groups, isHex g.1 = true ∧ isHex g.2 = true) ∧
        cs = colonJoined groups := by
  constructor
  · intro h
    fun_induction macGroups n cs with
    | case1 a b =>
      simp only [Bool.and_eq_true] at h
      exact ⟨[(a, b)], rfl, fun g hg => by rw [List.mem_singleton.mp hg]; exact h, rfl⟩
    | case2 a b => simp at hlength
    | case3 n a b rest ih =>
      simp only [Bool.and_eq_true] at h
      have hrest : rest.length = 3 * n + 2 := by
        simp only [List.length_cons] at hlength
        omega
      obtain ⟨groups, hcount, hhex, rfl⟩ := ih hrest h.2
      refine ⟨(a, b) :: groups, by rw [List.length_cons, hcount], fun g hg => ?_, ?_⟩
      · rcases List.mem_cons.mp hg with rfl | hg
        · exact h.1
        · exact hhex g hg
      · cases groups with
        | nil => cases hcount
        | cons g groups => rfl
    | case4 => cases h
  · rintro ⟨groups, hcount, hhex, rfl⟩
    clear hlength
    fun_induction colonJoined groups generalizing n with
    | case1 => cases hcount
    | case2 g =>
      obtain rfl : n = 0 := by simpa using hcount.symm
      have hg := hhex g List.mem_cons_self
      simp [macGroups, hg]
    | case3 g h rest ih =>
      obtain ⟨m, rfl⟩ : ∃ m, n = m + 1 := ⟨rest.length, by simpa using hcount.symm⟩
      have hg := hhex g List.mem_cons_self
      have hrest := ih (n := m) (by simpa using hcount) fun x hx => hhex x (List.mem_cons_of_mem _ hx)
      simp [macGroups, hg, hrest]

theorem isHex_toLower {c : Char} (h : isHex c = true) : isHex c.toLower = true :=
  of_hexDigit? (p := fun c => isHex c.toLower = true) (by decide) h

theorem macGroups_toLower {n : Nat} {cs : List Char} (h : macGroups n cs = true) :
    macGroups n (cs.map Char.toLower) = true := by
  fun_induction macGroups n cs with
  | case1 a b =>
    simp only [Bool.and_eq_true] at h
    simp [macGroups, isHex_toLower h.1, isHex_toLower h.2]
  | case2 a b =>
    simp only [Bool.and_eq_true] at h
    have hnewline : Char.toLower '\n' = '\n' := by decide
    simp [macGroups, isHex_toLower h.1, isHex_toLower h.2, hnewline]
  | case3 n a b rest ih =>
    simp only [Bool.and_eq_true] at h
    have hcolon : Char.toLower ':' = ':' := by decide
    simp [macGroups, isHex_toLower h.1.1, isHex_toLower h.1.2, hcolon, ih h.2]
  | case4 => cases h

/-- The field accepts the lower case of exactly such texts. -/
theorem macAddressField_eq_some {v v' : String} :
    macAddressField v = some v' ↔ IsMac v ∧ v' = String.ofList (v.toList.map Char.toLower) := by
  unfold macAddressField IsMac
  constructor
  · intro h
    split at h
    · rename_i hlength
      simp only [lengthIn, Bool.and_eq_true, decide_eq_true_eq] at hlength
      have hseventeen : v.toList.length = 3 * 5 + 2 := by omega
      unfold validateMac at h
      split at h
      · rename_i hgroups
        cases h
        exact ⟨(macGroups_iff hseventeen).mp hgroups, rfl⟩
      · cases h
    · cases h
  · rintro ⟨⟨groups, hcount, hhex, hv⟩, rfl⟩
    have hseventeen : v.toList.length = 3 * 5 + 2 := by
      rw [hv]
      exact length_colonJoined hcount
    have hgroups := (macGroups_iff hseventeen).mpr ⟨groups, hcount, hhex, hv⟩
    simp [lengthIn, hseventeen, validateMac, hgroups]

/-! ## Octets -/

theorem highDigit_lt (b : Byte) : b.val / 16 < 16 := by omega

theorem lowDigit_lt (b : Byte) : b.val % 16 < 16 := by omega

/-- The canonical text of octets: lower case, with colons. -/
def macText (octets : List Byte) : List Char :=
  colonJoined (octets.map fun b =>
    (Uuid.hexChar ⟨b.val / 16, highDigit_lt b⟩, Uuid.hexChar ⟨b.val % 16, lowDigit_lt b⟩))

theorem toLower_of_hexDigit? {c : Char} {d : Fin 16} (h : Uuid.hexDigit? c = some d) :
    c.toLower = Uuid.hexChar d := by
  have hall : ∀ n < 128, (Uuid.hexDigit? (Char.ofNat n)).all fun d =>
      (Char.ofNat n).toLower == Uuid.hexChar d := by decide
  have hc := hall c.toNat (ascii_of_isHex (isHex_eq_true.mpr ⟨d, h⟩))
  rw [Char.ofNat_toNat, h] at hc
  exact beq_iff_eq.mp hc

theorem octet_div (hi lo : Fin 16) : (⟨(octet hi lo).val / 16, by omega⟩ : Fin 16) = hi := by
  apply Fin.ext
  simp only [octet]
  omega

theorem octet_mod (hi lo : Fin 16) :
    (⟨(octet hi lo).val % 16, Nat.mod_lt _ (by decide)⟩ : Fin 16) = lo := by
  apply Fin.ext
  simp only [octet]
  omega

theorem isHex_hexChar (d : Fin 16) : isHex (Uuid.hexChar d) = true :=
  isHex_eq_true.mpr ⟨d, Uuid.hexDigit?_hexChar d⟩

/-- Separators are no digits. -/
theorem ne_separator_of_isHex {c : Char} (h : isHex c = true) :
    (c != ':') = true ∧ (c != '-') = true :=
  of_hexDigit? (p := fun c => (c != ':') = true ∧ (c != '-') = true) (by decide) h

theorem filter_colonJoined {groups : List (Char × Char)}
    (h : ∀ g ∈ groups, isHex g.1 = true ∧ isHex g.2 = true) :
    ((colonJoined groups).filter (· != ':')).filter (· != '-') =
      groups.flatMap fun g => [g.1, g.2] := by
  fun_induction colonJoined groups with
  | case1 => rfl
  | case2 g =>
    obtain ⟨hfst, hsnd⟩ := h g List.mem_cons_self
    simp [ne_separator_of_isHex hfst, ne_separator_of_isHex hsnd]
  | case3 g g' rest ih =>
    obtain ⟨hfst, hsnd⟩ := h g List.mem_cons_self
    have hrest := ih fun x hx => h x (List.mem_cons_of_mem _ hx)
    simp only [List.filter_cons, (ne_separator_of_isHex hfst), (ne_separator_of_isHex hsnd),
      if_true, bne_self_eq_false, Bool.false_eq_true, if_false, hrest]
    rfl

/-- The octets of groups: the digits of the groups are theirs, and their canonical text is the
lower case of the joined groups. -/
theorem exists_octets_of_groups {groups : List (Char × Char)}
    (h : ∀ g ∈ groups, isHex g.1 = true ∧ isHex g.2 = true) :
    ∃ octets : List Byte, octets.length = groups.length ∧
      (groups.flatMap fun g => [g.1, g.2]).mapM Uuid.hexDigit? =
        some (octets.flatMap Byte.digits) ∧
      (colonJoined groups).map Char.toLower = macText octets := by
  fun_induction colonJoined groups with
  | case1 => exact ⟨[], rfl, rfl, rfl⟩
  | case2 g =>
    obtain ⟨hfst, hsnd⟩ := h g List.mem_cons_self
    obtain ⟨hi, hhi⟩ := isHex_eq_true.mp hfst
    obtain ⟨lo, hlo⟩ := isHex_eq_true.mp hsnd
    refine ⟨[octet hi lo], rfl, ?_, ?_⟩
    · simp [hhi, hlo, digits_octet]
    · simp only [macText, List.map_cons, List.map_nil, colonJoined, octet_div, octet_mod,
        toLower_of_hexDigit? hhi, toLower_of_hexDigit? hlo]
  | case3 g g' rest ih =>
    obtain ⟨hfst, hsnd⟩ := h g List.mem_cons_self
    obtain ⟨hi, hhi⟩ := isHex_eq_true.mp hfst
    obtain ⟨lo, hlo⟩ := isHex_eq_true.mp hsnd
    obtain ⟨octets, hcount, hdigits, htext⟩ := ih fun x hx => h x (List.mem_cons_of_mem _ hx)
    refine ⟨octet hi lo :: octets, congrArg (· + 1) hcount, ?_, ?_⟩
    · simp only [List.flatMap_cons, List.cons_append, List.nil_append, List.mapM_cons, hhi, hlo,
        digits_octet] at hdigits ⊢
      rw [hdigits]
      rfl
    · cases octets with
      | nil => cases hcount
      | cons b octets =>
        have hcolon : Char.toLower ':' = ':' := by decide
        simp only [List.map_cons, htext, hcolon, toLower_of_hexDigit? hhi,
          toLower_of_hexDigit? hlo]
        simp only [macText, List.map_cons, colonJoined, octet_div, octet_mod]

/-- The canonical text of six octets. -/
theorem isMac_macText {octets : List Byte} (h : octets.length = 6) :
    IsMac (String.ofList (macText octets)) := by
  refine ⟨_, by rw [List.length_map, h], fun g hg => ?_, String.toList_ofList⟩
  obtain ⟨b, -, rfl⟩ := List.mem_map.mp hg
  exact ⟨isHex_hexChar _, isHex_hexChar _⟩

theorem denotes_macText {octets : List Byte} (h : octets.length = 6) :
    Denotes (String.ofList (macText octets)) octets := by
  refine ⟨h, ?_⟩
  have hhex : ∀ g ∈ octets.map fun b : Byte =>
      (Uuid.hexChar ⟨b.val / 16, by omega⟩, Uuid.hexChar ⟨b.val % 16, Nat.mod_lt _ (by decide)⟩),
      isHex g.1 = true ∧ isHex g.2 = true := by
    intro g hg
    obtain ⟨b, -, rfl⟩ := List.mem_map.mp hg
    exact ⟨isHex_hexChar _, isHex_hexChar _⟩
  have hdigits : ((octets.map fun b : Byte => (Uuid.hexChar ⟨b.val / 16, by omega⟩,
      Uuid.hexChar ⟨b.val % 16, Nat.mod_lt _ (by decide)⟩)).flatMap fun g => [g.1, g.2]) =
      (octets.flatMap Byte.digits).map Uuid.hexChar := by
    simp only [List.flatMap_map, List.map_flatMap, Byte.digits, List.map_cons, List.map_nil]
  rw [withoutSeparators, String.toList_ofList, macText, filter_colonJoined hhex, hdigits,
    Uuid.mapM_hexDigit?]

/-- An accepted text denotes six octets, and is stored as their canonical text. -/
theorem denotes_of_isMac {v : String} (h : IsMac v) :
    ∃ octets, Denotes v octets ∧
      String.ofList (v.toList.map Char.toLower) = String.ofList (macText octets) := by
  obtain ⟨groups, hcount, hhex, hv⟩ := h
  obtain ⟨octets, hlength, hdigits, htext⟩ := exists_octets_of_groups hhex
  refine ⟨octets, ⟨hlength.trans hcount, ?_⟩, ?_⟩
  · rw [withoutSeparators, hv, filter_colonJoined hhex]
    exact hdigits
  · rw [hv, htext]

/-- The canonical text is stored as it is. -/
theorem macAddressField_macText {octets : List Byte} (h : octets.length = 6) :
    macAddressField (String.ofList (macText octets)) = some (String.ofList (macText octets)) := by
  refine macAddressField_eq_some.mpr ⟨isMac_macText h, ?_⟩
  obtain ⟨same, hsame, htext⟩ := denotes_of_isMac (isMac_macText h)
  rw [htext, hsame.unique (denotes_macText h)]

/-- `MachineCreate` decides about the address of a machine by this field alone. -/
theorem MachineCreate.validated_macAddress {b : MachineCreate} {f : MachineFields}
    (h : b.validated = some f) (v : String) :
    ({ b with macAddress := v } : MachineCreate).validated =
      (macAddressField v).map fun macAddress => { f with macAddress } := by
  unfold MachineCreate.validated at h ⊢
  split at h
  swap
  · cases h
  rename_i hchecks
  simp only [Bool.and_eq_true] at hchecks
  obtain ⟨mac, -, rfl⟩ := Option.map_eq_some_iff.mp h
  simp only [macAddressField, hchecks, Bool.and_true, Bool.true_and]
  split
  · rfl
  · rfl

/-- The field `mac_address` accepts exactly the MAC addresses with colons, stores the one
lower-case text of their octets, and the encoder repeats these octets. -/
theorem macAddress_exact (P : Platform) (T : UpperTable) (v : String) :
    (∀ (b : MachineCreate) (f : MachineFields), b.validated = some f →
      ({ b with macAddress := v } : MachineCreate).validated =
        (macAddressField v).map fun macAddress => { f with macAddress }) ∧
    ((∃ v', macAddressField v = some v') ↔ IsMac v) ∧
    ∀ v', macAddressField v = some v' →
      v' = String.ofList (v.toList.map Char.toLower) ∧
      macAddressField v' = some v' ∧
      ∃ octets, Denotes v octets ∧
        (∀ w w', macAddressField w = some w' → Denotes w octets → w' = v') ∧
        Denotes v' octets ∧ buildMagicPacket P T v' = .ok (magicPacket octets) := by
  refine ⟨fun b f h => MachineCreate.validated_macAddress h v, ?_, fun v' hv' => ?_⟩
  · constructor
    · rintro ⟨v', hv'⟩
      exact (macAddressField_eq_some.mp hv').1
    · exact fun h => ⟨_, macAddressField_eq_some.mpr ⟨h, rfl⟩⟩
  · obtain ⟨hmac, hlower⟩ := macAddressField_eq_some.mp hv'
    obtain ⟨octets, hdenotes, htext⟩ := denotes_of_isMac hmac
    rw [htext] at hlower
    have hsix : octets.length = 6 := hdenotes.1
    refine ⟨hlower.trans htext.symm, ?_, octets, hdenotes, fun w w' hw' hsame => ?_, ?_, ?_⟩
    · rw [hlower]
      exact macAddressField_macText hsix
    · obtain ⟨hwmac, hwlower⟩ := macAddressField_eq_some.mp hw'
      obtain ⟨others, hothers, hwtext⟩ := denotes_of_isMac hwmac
      rw [hwlower, hwtext, hothers.unique hsame, hlower]
    · rw [hlower]
      exact denotes_macText hsix
    · rw [hlower]
      exact buildMagicPacket_of_denotes P T (denotes_macText hsix)

end WolMonkey
