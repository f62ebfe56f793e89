import WolMonkey.Host.Interfaces
import WolMonkey.Machines.MacAddress

/-!
# The neighbours of the host

`_discover_hosts` shows the rows of the ARP table that have a hardware address, sorted by
address. The flags of a row are a word of bits; the entry is complete when the bit `0x2` is set,
but the code compares the text of the word with `0x2`.
-/

namespace WolMonkey

open WolMonkey.System StableOrders

/-- A row of `/proc/net/arp`. -/
structure ArpEntry where
  address : Ipv4
  flags : Nat
  mac : List (Char × Char)
  device : String
  six : mac.length = 6
  hex : ∀ g ∈ mac, isHex g.1 = true ∧ isHex g.2 = true

namespace ArpEntry

/-- The flags as the kernel prints them. -/
def flagsText (a : ArpEntry) : List Char := '0' :: 'x' :: Nat.toDigits 16 a.flags

/-- The line shows this row. -/
def Reads (line : List Char) (a : ArpEntry) : Prop :=
  ∃ hwtype mask, words line =
    [a.address.text, hwtype, a.flagsText, colonJoined a.mac, mask, a.device.toList]

/-- The hardware address is not all zeros. -/
def Known (a : ArpEntry) : Prop := ∃ g ∈ a.mac, g ≠ ('0', '0')

instance (a : ArpEntry) : Decidable a.Known := inferInstanceAs (Decidable (∃ g ∈ a.mac, _))

/-- The bit `0x2` of the flags. -/
def complete (a : ArpEntry) : Bool := a.flags.testBit 1

end ArpEntry

/-- The name stands in the file `wireless`. -/
def ListedWireless (wireless name : String) : Prop :=
  ∃ line ∈ (splitlines wireless).drop 2, nameOf line = name

/-- The host shows this row: everything but whether it can be reached. -/
structure ArpEntry.Shows (wireless : String) (a : ArpEntry) (h : DiscoveredHost) : Prop where
  ipAddress : h.ipAddress = String.ofList a.address.text
  interface : h.interface = a.device
  macAddress : h.macAddress = String.ofList ((colonJoined a.mac).map Char.toLower)
  isWireless : h.isWireless = true ↔ ListedWireless wireless a.device

/-- The rows in ascending order of their addresses, those with one address in the order of the
table. -/
structure AddressOrder (rows view : List ArpEntry) : Prop where
  perm : view.Perm rows
  sorted : view.Pairwise fun a b => a.address.toNat ≤ b.address.toNat
  stable : ∀ x : Ipv4, (view.filter fun a => a.address == x) = rows.filter fun a => a.address == x

/-! ## The text of a row -/

theorem flagsText_eq_iff (a : ArpEntry) : String.ofList a.flagsText = "0x2" ↔ a.flags = 2 := by
  have htext : String.ofList a.flagsText = "0x2" ↔ Nat.toDigits 16 a.flags = ['2'] := by
    rw [show "0x2" = String.ofList ['0', 'x', '2'] from rfl, String.ofList_inj, ArpEntry.flagsText,
      List.cons.injEq, List.cons.injEq]
    exact ⟨fun h => h.2.2, fun h => ⟨rfl, rfl, h⟩⟩
  rw [htext]
  constructor
  · intro h
    have hlt : a.flags < 16 := by
      have hlength := (Nat.length_toDigits_le_iff (by decide) Nat.one_pos).mp
        (congrArg List.length h).le
      simpa using hlength
    rw [Nat.toDigits_of_lt_base hlt] at h
    have hall : ∀ n : Fin 16, Nat.digitChar n.val = '2' → n.val = 2 := by decide
    exact hall ⟨a.flags, hlt⟩ (List.cons.inj h).1
  · rintro h
    rw [h]
    rfl

theorem colonJoined_injective {groups groups' : List (Char × Char)}
    (hlength : groups.length = groups'.length) (h : colonJoined groups = colonJoined groups') :
    groups = groups' := by
  fun_induction colonJoined groups generalizing groups' with
  | case1 => exact (List.length_eq_zero_iff.mp hlength.symm).symm
  | case2 g =>
    obtain ⟨g', rfl⟩ := List.length_eq_one_iff.mp hlength.symm
    simp only [colonJoined, List.cons.injEq, and_true] at h
    rw [Prod.ext h.1 h.2]
  | case3 g g₂ rest ih =>
    rcases groups' with _ | ⟨g', _ | ⟨g₂', rest'⟩⟩
    · cases hlength
    · cases hlength
    · simp only [colonJoined, List.cons.injEq, true_and] at h
      have hrest := ih (Nat.succ.inj hlength) h.2.2
      rw [Prod.ext h.1 h.2.1, hrest]

theorem ascii_colonJoined {groups : List (Char × Char)}
    (h : ∀ g ∈ groups, isHex g.1 = true ∧ isHex g.2 = true) :
    ∀ c ∈ colonJoined groups, c.toNat < 128 := by
  fun_induction colonJoined groups with
  | case1 => exact fun _ hc => (List.not_mem_nil hc).elim
  | case2 g =>
    obtain ⟨hfst, hsnd⟩ := h g List.mem_cons_self
    intro c hc
    rcases List.mem_pair.mp hc with rfl | rfl
    · exact ascii_of_isHex hfst
    · exact ascii_of_isHex hsnd
  | case3 g g' rest ih =>
    obtain ⟨hfst, hsnd⟩ := h g List.mem_cons_self
    intro c hc
    rcases List.mem_cons.mp hc with rfl | hc
    · exact ascii_of_isHex hfst
    rcases List.mem_cons.mp hc with rfl | hc
    · exact ascii_of_isHex hsnd
    rcases List.mem_cons.mp hc with rfl | hc
    · decide
    · exact ih (fun x hx => h x (List.mem_cons_of_mem _ hx)) c hc

theorem zeroMac_iff (a : ArpEntry) :
    String.ofList (colonJoined a.mac) = "00:00:00:00:00:00" ↔ ¬ a.Known := by
  have hzero : "00:00:00:00:00:00" =
      String.ofList (colonJoined (List.replicate 6 ('0', '0'))) := by decide
  rw [hzero, String.ofList_inj]
  constructor
  · rintro h ⟨g, hg, hne⟩
    rw [colonJoined_injective (a.six.trans List.length_replicate.symm) h] at hg
    exact hne (List.eq_of_mem_replicate hg)
  · intro h
    have hall : a.mac = List.replicate 6 ('0', '0') := by
      refine List.eq_replicate_iff.mpr ⟨a.six, fun g hg => ?_⟩
      by_contra hne
      exact h ⟨g, hg, hne⟩
    rw [hall]

/-- The host that a row is shown as. -/
def ArpEntry.host (wirelessNames : List String) (a : ArpEntry) : DiscoveredHost :=
  { ipAddress := String.ofList a.address.text
    macAddress := String.ofList ((colonJoined a.mac).map Char.toLower)
    interface := a.device
    isReachable := decide (a.flags = 2)
    isWireless := wirelessNames.contains a.device }

theorem arpHost_reads (P : Platform) {line : List Char} {a : ArpEntry} (h : a.Reads line)
    (wirelessNames : List String) :
    arpHost P wirelessNames line = if a.Known then some (a.host wirelessNames) else none := by
  obtain ⟨hwtype, mask, hwords⟩ := h
  have hlower : pyLower P (String.ofList (colonJoined a.mac)) =
      String.ofList ((colonJoined a.mac).map Char.toLower) := by
    unfold pyLower
    rw [String.toList_ofList, if_pos]
    exact List.all_eq_true.mpr fun c hc => decide_eq_true (ascii_colonJoined a.hex c hc)
  have hflags : (String.ofList a.flagsText == "0x2") = decide (a.flags = 2) := by
    rw [Bool.eq_iff_iff, beq_iff_eq, decide_eq_true_eq]
    exact flagsText_eq_iff a
  unfold arpHost
  rw [hwords]
  dsimp only
  by_cases hknown : a.Known
  · rw [if_pos hknown, if_neg, hlower, hflags, String.ofList_toList]
    · rfl
    · exact fun heq => (zeroMac_iff a).mp (beq_iff_eq.mp heq) hknown
  · rw [if_neg hknown, if_pos (beq_iff_eq.mpr ((zeroMac_iff a).mpr hknown))]

theorem hosts_reads (P : Platform) {lines : List (List Char)} {rows : List ArpEntry}
    (h : List.Forall₂ ArpEntry.Reads lines rows) (wirelessNames : List String) :
    lines.filterMap (arpHost P wirelessNames) =
      (rows.filter fun a => decide a.Known).map (ArpEntry.host wirelessNames) := by
  induction h with
  | nil => rfl
  | @cons line a lines rows hline _ ih =>
    rw [List.filterMap_cons, List.filter_cons, arpHost_reads P hline, ih]
    by_cases hknown : a.Known
    · rw [if_pos hknown, if_pos (decide_eq_true hknown), List.map_cons]
    · rw [if_neg hknown, if_neg (fun heq => hknown (of_decide_eq_true heq))]

/-! ## The order of the addresses -/

theorem pyInt_repr (P : Platform) {n : Nat} (h : n < 256) :
    pyInt P (String.ofList n.repr.toList) = .ok (n : Int) := by
  have hall : ∀ n : Fin 256, (decimalBody (dropSign (strip isSpace n.val.repr.toList))).any
      (fun ds => decide (ds.length ≤ 4300) &&
        decide (ds.foldl (fun n d => 10 * n + d) 0 = n.val)) = true ∧
      (strip isSpace n.val.repr.toList).head? ≠ some '-' := by decide +kernel
  obtain ⟨hdigits, hsign⟩ := hall ⟨n, h⟩
  unfold pyInt
  dsimp only
  rw [String.toList_ofList]
  cases hbody : decimalBody (dropSign (strip isSpace n.repr.toList)) with
  | none =>
    rw [hbody] at hdigits
    cases hdigits
  | some ds =>
    rw [hbody] at hdigits
    simp only [Option.any_some, Bool.and_eq_true, decide_eq_true_eq] at hdigits
    dsimp only
    rw [if_neg (by omega)]
    simp only [beq_iff_eq, hsign, if_false]
    exact congrArg Except.ok ((Ipv4.foldl_digits 10 ds 0).trans (congrArg Nat.cast hdigits.2))

/-- The four octets of an address. -/
def octetsOf (x : Ipv4) : List Int :=
  [((x.toNat / 16777216 : Nat) : Int), ((x.toNat / 65536 % 256 : Nat) : Int),
    ((x.toNat / 256 % 256 : Nat) : Int), ((x.toNat % 256 : Nat) : Int)]

theorem addressKey_text (P : Platform) (x : Ipv4) :
    addressKey P (String.ofList x.text) = .ok (octetsOf x) := by
  obtain ⟨ha, hb, hc, hd⟩ := Ipv4.octets_lt x
  unfold addressKey
  rw [String.toList_ofList, Ipv4.splitOn_text]
  simp only [List.mapM_cons, List.mapM_nil, pyInt_repr P ha, pyInt_repr P hb, pyInt_repr P hc,
    pyInt_repr P hd]
  rfl

/-- The tuples are ordered like the addresses. -/
theorem keyLe_octetsOf (x y : Ipv4) :
    keyLe (octetsOf x) (octetsOf y) = decide (x.toNat ≤ y.toNat) := by
  rw [Bool.eq_iff_iff]
  simp only [octetsOf, keyLe, Bool.and_true, Bool.or_eq_true, Bool.and_eq_true, decide_eq_true_eq,
    beq_iff_eq]
  have hx : x.toNat < 2 ^ 32 := x.isLt
  have hy : y.toNat < 2 ^ 32 := y.isLt
  omega

/-- The hosts are the known rows, sorted by address. -/
theorem discoverHosts_reads (P : Platform) {arp : String} {rows : List ArpEntry}
    (h : List.Forall₂ ArpEntry.Reads ((splitlines arp).drop 1) rows) (wireless : String) :
    discoverHosts P arp wireless =
      .ok (((rows.filter fun a => decide a.Known).mergeSort
        (ascending fun a => a.address.toNat)).map (ArpEntry.host (parseWirelessNames wireless))) := by
  have hkeyed : ∀ kept : List ArpEntry,
      (kept.map (ArpEntry.host (parseWirelessNames wireless))).mapM
        (fun host => do return (← addressKey P host.ipAddress, host)) =
      .ok (kept.map fun a => (octetsOf a.address, a.host (parseWirelessNames wireless))) := by
    intro kept
    refine mapM_ok ?_
    rw [List.forall₂_map_left_iff, List.forall₂_map_right_iff, List.forall₂_same]
    intro a _
    rw [show (a.host (parseWirelessNames wireless)).ipAddress = String.ofList a.address.text from rfl,
      addressKey_text]
    rfl
  unfold discoverHosts
  dsimp only
  rw [hosts_reads P h, hkeyed]
  refine congrArg Except.ok ?_
  rw [← List.map_mergeSort (r := ascending fun a : ArpEntry => a.address.toNat), List.map_map]
  · rfl
  · intro a _ b _
    exact (keyLe_octetsOf a.address b.address).symm

theorem addressOrder_mergeSort (rows : List ArpEntry) :
    AddressOrder rows (rows.mergeSort (ascending fun a => a.address.toNat)) := by
  refine ⟨List.mergeSort_perm _ _, pairwise_mergeSort_ascending, fun x => ?_⟩
  have hkey : (fun a : ArpEntry => a.address == x) = fun a => a.address.toNat == x.toNat := by
    funext a
    rw [Bool.eq_iff_iff, beq_iff_eq, beq_iff_eq]
    exact BitVec.toNat_inj.symm
  rw [hkey]
  exact filter_mergeSort_ascending x.toNat

theorem shows_host (wireless : String) (a : ArpEntry) :
    a.Shows wireless (a.host (parseWirelessNames wireless)) := by
  refine ⟨rfl, rfl, rfl, ?_⟩
  unfold ArpEntry.host parseWirelessNames ListedWireless
  rw [List.contains_iff_mem, List.mem_map]

/-! ## The claim about the hosts -/

/-- The hosts are a faithful view of the rows: one for each row with a hardware address, in order,
and reachable exactly if the entry is complete. -/
def FaithfulView (wireless : String) (rows : List ArpEntry) (hosts : List DiscoveredHost) : Prop :=
  ∃ view, AddressOrder (rows.filter fun a => decide a.Known) view ∧
    List.Forall₂ (fun a h => a.Shows wireless h ∧ (h.isReachable = true ↔ a.complete = true)) view
      hosts

theorem countP_eq_of_forall₂ {α β : Type} {p : α → Bool} {q : β → Bool} {as : List α} {bs : List β}
    (h : List.Forall₂ (fun a b => q b = p a) as bs) : bs.countP q = as.countP p := by
  induction h with
  | nil => rfl
  | cons hhead _ ih => rw [List.countP_cons, List.countP_cons, hhead, ih]

/-- Two counts of a list are equal for predicates of which one is stronger only if they agree. -/
theorem agree_of_countP_eq {α : Type} {p q : α → Bool} {l : List α} (hpq : ∀ a, p a = true → q a = true)
    (h : l.countP p = l.countP q) : ∀ a ∈ l, q a = true → p a = true := by
  induction l with
  | nil => exact fun _ ha => (List.not_mem_nil ha).elim
  | cons b l ih =>
    have hle : l.countP p ≤ l.countP q := List.countP_mono_left fun a _ => hpq a
    rw [List.countP_cons, List.countP_cons] at h
    intro a ha hqa
    by_cases hpb : p b = true
    · rw [if_pos hpb, if_pos (hpq b hpb)] at h
      rcases List.mem_cons.mp ha with rfl | ha
      · exact hpb
      · exact ih (Nat.succ.inj h) a ha hqa
    · have hqb : ¬ q b = true := by
        intro hqb
        rw [if_neg hpb, if_pos hqb] at h
        omega
      rw [if_neg hpb, if_neg hqb] at h
      rcases List.mem_cons.mp ha with rfl | ha
      · exact absurd hqa hqb
      · exact ih h a ha hqa

/-- **The view is faithful** exactly if no row with a hardware address has the bit `0x2` set among
others. -/
theorem discoverHosts_faithful_iff (P : Platform) {arp : String} {rows : List ArpEntry}
    (h : List.Forall₂ ArpEntry.Reads ((splitlines arp).drop 1) rows) (wireless : String) :
    (∃ hosts, discoverHosts P arp wireless = .ok hosts ∧ FaithfulView wireless rows hosts) ↔
      ∀ a ∈ rows, a.Known → a.complete = true → a.flags = 2 := by
  have hcomplete : ∀ a : ArpEntry, decide (a.flags = 2) = true → a.complete = true := by
    intro a hflags
    rw [ArpEntry.complete, of_decide_eq_true hflags]
    rfl
  rw [discoverHosts_reads P h]
  have horder := addressOrder_mergeSort (rows.filter fun a => decide a.Known)
  constructor
  · rintro ⟨hosts, heq, view, hview, hshown⟩ a ha hknown hbit
    obtain rfl := Except.ok.inj heq
    -- as many rows are complete as have exactly this flag
    have hreachable : List.Forall₂ (fun a h => h.isReachable = a.complete) view
        (((rows.filter fun a => decide a.Known).mergeSort (ascending fun a => a.address.toNat)).map
          (ArpEntry.host (parseWirelessNames wireless))) :=
      hshown.imp fun a h hboth => Bool.eq_iff_iff.mpr hboth.2
    have hcount := countP_eq_of_forall₂ hreachable
    rw [List.countP_map, hview.perm.countP_eq, horder.perm.countP_eq] at hcount
    have hagree := agree_of_countP_eq (p := fun a : ArpEntry => decide (a.flags = 2)) hcomplete hcount
    exact of_decide_eq_true
      (hagree a (List.mem_filter.mpr ⟨ha, decide_eq_true hknown⟩) hbit)
  · intro hexact
    refine ⟨_, rfl, _, horder, ?_⟩
    rw [List.forall₂_map_right_iff, List.forall₂_same]
    intro a ha
    obtain ⟨hmem, hknown⟩ := List.mem_filter.mp (List.mem_mergeSort.mp ha)
    refine ⟨shows_host wireless a, hcomplete a, fun hbit => ?_⟩
    exact decide_eq_true (hexact a hmem (of_decide_eq_true hknown) hbit)

/-! ## A permanent entry -/

namespace ArpSample

/-- A row whose entry is complete and permanent. -/
def permanent : ArpEntry :=
  { address := 0x0A000005#32, flags := 6
    mac := [('0', '2'), ('0', '0'), ('0', '0'), ('0', '0'), ('0', '0'), ('0', '1')]
    device := "eth0", six := rfl, hex := by decide }

def dynamic : ArpEntry :=
  { address := 0x0A000006#32, flags := 2
    mac := [('0', '2'), ('0', '0'), ('0', '0'), ('0', '0'), ('0', 'A'), ('0', '1')]
    device := "eth0", six := rfl, hex := by decide }

def header : String := "IP address HW type Flags HW address Mask Device\n"

def arp : String := header ++ "10.0.0.5 0x1 0x6 02:00:00:00:00:01 * eth0\n"

def dynamicArp : String := header ++ "10.0.0.6 0x1 0x2 02:00:00:00:0A:01 * eth0\n"

theorem reads : List.Forall₂ ArpEntry.Reads ((splitlines arp).drop 1) [permanent] := by
  have hlines : (splitlines arp).drop 1 = ["10.0.0.5 0x1 0x6 02:00:00:00:00:01 * eth0".toList] := by
    decide +kernel
  rw [hlines]
  exact .cons ⟨"0x1".toList, "*".toList, by decide +kernel⟩ .nil

theorem dynamic_reads : List.Forall₂ ArpEntry.Reads ((splitlines dynamicArp).drop 1) [dynamic] := by
  have hlines : (splitlines dynamicArp).drop 1 =
      ["10.0.0.6 0x1 0x2 02:00:00:00:0A:01 * eth0".toList] := by decide +kernel
  rw [hlines]
  exact .cons ⟨"0x1".toList, "*".toList, by decide +kernel⟩ .nil

end ArpSample

theorem discoverHosts_faithful_iff_sample :
    (∃ hosts, discoverHosts Platform.sample ArpSample.dynamicArp "" = .ok hosts ∧
      FaithfulView "" [ArpSample.dynamic] hosts) ↔
      ∀ a ∈ [ArpSample.dynamic], a.Known → a.complete = true → a.flags = 2 :=
  discoverHosts_faithful_iff Platform.sample ArpSample.dynamic_reads ""

/-- The host of a permanent entry is shown as out of reach. -/
theorem permanent_entry_unreachable :
    List.Forall₂ ArpEntry.Reads ((splitlines ArpSample.arp).drop 1) [ArpSample.permanent] ∧
      ¬ ∃ hosts, discoverHosts Platform.sample ArpSample.arp "" = .ok hosts ∧
        FaithfulView "" [ArpSample.permanent] hosts := by
  refine ⟨ArpSample.reads, ?_⟩
  rintro ⟨hosts, heq, view, hview, hshown⟩
  rw [discoverHosts_reads Platform.sample ArpSample.reads] at heq
  have hkept : [ArpSample.permanent].filter (fun a => decide a.Known) = [ArpSample.permanent] := by
    rfl
  rw [hkept, List.mergeSort_singleton] at heq
  rw [hkept] at hview
  obtain rfl := Except.ok.inj heq
  rw [List.perm_singleton.mp hview.perm] at hshown
  obtain ⟨⟨-, hreachable⟩, -⟩ := List.forall₂_cons.mp hshown
  have hunreachable := hreachable.mpr rfl
  revert hunreachable
  decide

end WolMonkey
