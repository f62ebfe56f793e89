import WolMonkey.Host.Interfaces

/-!
# Malformed lines

The parsers of `/proc/net` look at the number of columns of a line before they read them, and
skip a line that is too short. `_parse_flags` asks for nine columns and reads the tenth, and it
converts its counters outside of any `try`; `_discover_hosts` converts the parts of an address
when it sorts. On these lines they raise; every other line that they cannot use is skipped.
-/

namespace WolMonkey

open WolMonkey.System

/-! ## Lines that a parser cannot use -/

section Lines
variable (P : Platform)

/-- `int` accepts the text. -/
def IsInt (cs : List Char) : Prop := ∃ n, pyInt P (String.ofList cs) = .ok n

/-- The columns behind the name of an interface. -/
def counterColumns (line : List Char) : List (List Char) :=
  words ((line.dropWhile (· != ':')).drop 1)

/-- The line of `dev` has a name and nine columns. -/
def Measured (line : List Char) : Prop := ':' ∈ line ∧ 9 ≤ (counterColumns line).length

/-- The columns of the packet counters are there, and are numbers. -/
def Counted (line : List Char) : Prop :=
  ∃ rx tx, (counterColumns line)[1]? = some rx ∧ (counterColumns line)[9]? = some tx ∧
    IsInt P rx ∧ IsInt P tx

/-- The line of `dev` gives an interface its flags. -/
def DevUsable (line : List Char) : Prop := Measured line ∧ Counted P line

/-- The line of the route table has its columns, and they are numbers that fit. -/
def RouteUsable (line : List Char) : Prop :=
  ∃ iface dest gw flags refcnt use metric mask rest,
    words line = iface :: dest :: gw :: flags :: refcnt :: use :: metric :: mask :: rest ∧
      (pyIntBase16 flags).isSome ∧ (routeHexToBeInt dest).isSome ∧ (routeHexToBeInt mask).isSome

/-- The line of the ARP table has six columns, with this address and a hardware address. -/
def NeighbourAt (ip line : List Char) : Prop :=
  ∃ hwtype flags mac mask iface rest,
    words line = ip :: hwtype :: flags :: mac :: mask :: iface :: rest ∧
      String.ofList mac ≠ "00:00:00:00:00:00"

/-- The parts of the address are numbers. -/
def Sortable (ip : List Char) : Prop := ∀ part ∈ ip.splitOn '.', IsInt P part

/-- The line of the ARP table gives a host. -/
def ArpUsable (line : List Char) : Prop := ∃ ip, NeighbourAt ip line ∧ Sortable P ip

end Lines

/-- The second text is the first without some of the lines that cannot be used. -/
inductive LeavesOut {α : Type} (usable : α → Prop) : List α → List α → Prop where
  | nil : LeavesOut usable [] []
  | keep (line : α) {lines lines' : List α} (h : LeavesOut usable lines lines') :
      LeavesOut usable (line :: lines) (line :: lines')
  | skip (line : α) {lines lines' : List α} (hline : ¬ usable line)
      (h : LeavesOut usable lines lines') : LeavesOut usable (line :: lines) lines'

/-- The parsers return, and the lines that they cannot use make no difference to what they
return for the others. -/
structure Tolerant (P : Platform) (dev wireless route fibTrie arp : String) : Prop where
  interfaces : ∃ entries, listInterfaces P dev wireless route fibTrie = .ok entries
  hosts : ∃ hosts, discoverHosts P arp wireless = .ok hosts
  dev_skipped : ∀ dev', LeavesOut (DevUsable P) ((splitlines dev).drop 2)
    ((splitlines dev').drop 2) → ∃ entries entries',
      listInterfaces P dev wireless route fibTrie = .ok entries ∧
      listInterfaces P dev' wireless route fibTrie = .ok entries' ∧ entries'.Sublist entries
  route_skipped : ∀ route', LeavesOut RouteUsable ((splitlines route).drop 1)
    ((splitlines route').drop 1) → parseIfaceIps fibTrie route' = parseIfaceIps fibTrie route
  arp_skipped : ∀ arp', LeavesOut (ArpUsable P) ((splitlines arp).drop 1)
    ((splitlines arp').drop 1) → discoverHosts P arp' wireless = discoverHosts P arp wireless

namespace LeavesOut
variable {α β : Type} {usable : α → Prop} {lines lines' : List α}

theorem sublist (h : LeavesOut usable lines lines') : lines'.Sublist lines := by
  induction h with
  | nil => exact .slnil
  | keep line _ ih => exact ih.cons_cons line
  | skip line _ _ ih => exact ih.cons line

/-- What nothing is made of can be left out. -/
theorem filterMap_eq {f : α → Option β} (h : LeavesOut usable lines lines')
    (hf : ∀ line ∈ lines, ¬ usable line → f line = none) :
    lines'.filterMap f = lines.filterMap f := by
  induction h with
  | nil => rfl
  | keep line _ ih =>
    rw [List.filterMap_cons, List.filterMap_cons,
      ih fun line' hline' => hf line' (List.mem_cons_of_mem _ hline')]
  | skip line hline _ ih =>
    rw [List.filterMap_cons, hf line List.mem_cons_self hline,
      ih fun line' hline' => hf line' (List.mem_cons_of_mem _ hline')]

end LeavesOut

/-! ## Parsers that may raise -/

section Except
variable {α β ε : Type} {f : α → Except ε β}

theorem exists_of_mapM_ok {as : List α} {bs : List β} (h : as.mapM f = .ok bs) :
    ∀ a ∈ as, ∃ b, f a = .ok b := by
  induction as generalizing bs with
  | nil => exact fun _ ha => (List.not_mem_nil ha).elim
  | cons a as ih =>
    rw [List.mapM_cons] at h
    cases hhead : f a with
    | error e =>
      rw [hhead] at h
      cases h
    | ok b =>
      cases htail : as.mapM f with
      | error e =>
        rw [hhead, htail] at h
        cases h
      | ok bs' =>
        intro a' ha'
        rcases List.mem_cons.mp ha' with rfl | ha'
        · exact ⟨b, hhead⟩
        · exact ih htail a' ha'

theorem mapM_of_exists {as : List α} (h : ∀ a ∈ as, ∃ b, f a = .ok b) :
    ∃ bs, as.mapM f = .ok bs ∧ List.Forall₂ (fun a b => f a = .ok b) as bs := by
  have hall : ∃ bs, List.Forall₂ (fun a b => f a = .ok b) as bs := by
    induction as with
    | nil => exact ⟨[], .nil⟩
    | cons a as ih =>
      obtain ⟨b, hb⟩ := h a List.mem_cons_self
      obtain ⟨bs, hbs⟩ := ih fun a' ha' => h a' (List.mem_cons_of_mem _ ha')
      exact ⟨b :: bs, .cons hb hbs⟩
  obtain ⟨bs, hbs⟩ := hall
  exact ⟨bs, mapM_ok hbs, hbs⟩

end Except

/-! ## The flags -/

section Dev
variable {P : Platform} {routed : List String} {line : List Char}

theorem counter_ok_iff {parts : List (List Char)} {i : Nat} :
    (∃ n, counter P parts i = .ok n) ↔ ∃ cs, parts[i]? = some cs ∧ IsInt P cs := by
  unfold counter
  constructor
  · rintro ⟨n, h⟩
    split at h
    · cases h
    · rename_i cs hcs
      split at h
      · rename_i n' hn
        exact ⟨cs, hcs, n', hn⟩
      · cases h
  · rintro ⟨cs, hcs, n, hn⟩
    rw [hcs]
    dsimp only
    rw [hn]
    exact ⟨n, rfl⟩

theorem lineFlags_skipped (h : ¬ Measured line) : lineFlags P routed line = .ok none := by
  unfold lineFlags
  by_cases hcolon : line.contains ':' = true
  · rw [hcolon, Bool.not_true, if_neg Bool.false_ne_true]
    have hshort : (counterColumns line).length < 9 := by
      by_contra hlong
      exact h ⟨List.contains_iff_mem.mp hcolon, Nat.not_lt.mp hlong⟩
    exact if_pos hshort
  · rw [(Bool.not_eq_true _).mp hcolon]
    rfl

theorem lineFlags_measured (h : Measured line) : lineFlags P routed line = do
    let rxPackets ← counter P (counterColumns line) 1
    let txPackets ← counter P (counterColumns line) 9
    return some (nameOf line,
      { up := routed.contains (nameOf line), running := rxPackets > 0 || txPackets > 0
        loopback := nameOf line == "lo" }) := by
  unfold lineFlags
  rw [List.contains_iff_mem.mpr h.1, Bool.not_true, if_neg Bool.false_ne_true]
  exact if_neg (Nat.not_lt.mpr h.2)

theorem lineFlags_ok_iff : (∃ o, lineFlags P routed line = .ok o) ↔
    (Measured line → Counted P line) := by
  by_cases hmeasured : Measured line
  · rw [lineFlags_measured hmeasured]
    constructor
    · rintro ⟨o, h⟩ -
      cases hrx : counter P (counterColumns line) 1 with
      | error e =>
        rw [hrx] at h
        cases h
      | ok rx =>
        cases htx : counter P (counterColumns line) 9 with
        | error e =>
          rw [hrx, htx] at h
          cases h
        | ok tx =>
          obtain ⟨cs, hcs, hint⟩ := counter_ok_iff.mp ⟨rx, hrx⟩
          obtain ⟨cs', hcs', hint'⟩ := counter_ok_iff.mp ⟨tx, htx⟩
          exact ⟨cs, cs', hcs, hcs', hint, hint'⟩
    · intro h
      obtain ⟨cs, cs', hcs, hcs', hint, hint'⟩ := h hmeasured
      obtain ⟨rx, hrx⟩ := counter_ok_iff.mpr ⟨cs, hcs, hint⟩
      obtain ⟨tx, htx⟩ := counter_ok_iff.mpr ⟨cs', hcs', hint'⟩
      rw [hrx, htx]
      exact ⟨_, rfl⟩
  · rw [lineFlags_skipped hmeasured]
    exact iff_of_true ⟨_, rfl⟩ fun h => absurd h hmeasured

/-- The flags of a line that raises nothing. -/
def flagsOfLine (P : Platform) (routed : List String) (line : List Char) :
    Option (String × Flags) :=
  match lineFlags P routed line with
  | .ok flags => flags
  | .error _ => none

theorem parseFlags_of_ok {dev route : String}
    (h : ∀ line ∈ (splitlines dev).drop 2, Measured line → Counted P line) :
    parseFlags P dev route = .ok (((splitlines dev).drop 2).filterMap
      (flagsOfLine P (routedNames route))).reverse := by
  obtain ⟨bs, hbs, heach⟩ := mapM_of_exists (f := lineFlags P (routedNames route))
    fun line hline => lineFlags_ok_iff.mpr (h line hline)
  have hflat : bs.filterMap id =
      ((splitlines dev).drop 2).filterMap (flagsOfLine P (routedNames route)) := by
    clear hbs h
    generalize (splitlines dev).drop 2 = lines at heach ⊢
    induction heach with
    | nil => rfl
    | cons hhead _ ih =>
      rw [List.filterMap_cons, List.filterMap_cons, ih, flagsOfLine, hhead]
      rfl
  rw [parseFlags_eq, hbs]
  exact congrArg (fun l : List (String × Flags) => Except.ok l.reverse) hflat

theorem counted_of_parseFlags {dev route : String} {flagsMap : List (String × Flags)}
    (h : parseFlags P dev route = .ok flagsMap) :
    ∀ line ∈ (splitlines dev).drop 2, Measured line → Counted P line := by
  intro line hline
  rw [parseFlags_eq] at h
  cases hlines : ((splitlines dev).drop 2).mapM (lineFlags P (routedNames route)) with
  | error e =>
    rw [hlines] at h
    cases h
  | ok bs => exact lineFlags_ok_iff.mp (exists_of_mapM_ok hlines line hline)

end Dev

/-! ## The hosts -/

section Arp
variable {P : Platform} {wirelessNames : List String} {line ip : List Char}

/-- One number of the key. -/
def addressPart (P : Platform) (cs : List Char) : Except PyExc Int :=
  match pyInt P (String.ofList cs) with
  | .ok n => .ok n
  | .error message => .error (.value message)

theorem addressKey_eq : addressKey P (String.ofList ip) = (ip.splitOn '.').mapM (addressPart P) := by
  unfold addressKey
  rw [String.toList_ofList]
  rfl

theorem addressPart_ok_iff {cs : List Char} : (∃ n, addressPart P cs = .ok n) ↔ IsInt P cs := by
  unfold IsInt addressPart
  cases pyInt P (String.ofList cs) with
  | ok n => exact ⟨fun _ => ⟨n, rfl⟩, fun _ => ⟨n, rfl⟩⟩
  | error message => simp

theorem addressKey_ok_iff : (∃ key, addressKey P (String.ofList ip) = .ok key) ↔ Sortable P ip := by
  rw [addressKey_eq]
  unfold Sortable
  constructor
  · rintro ⟨key, h⟩ cs hcs
    exact addressPart_ok_iff.mp (exists_of_mapM_ok h cs hcs)
  · intro h
    obtain ⟨key, hkey, -⟩ := mapM_of_exists fun cs hcs => addressPart_ok_iff.mpr (h cs hcs)
    exact ⟨key, hkey⟩

theorem arpHost_of_neighbourAt (P : Platform) (wirelessNames : List String)
    (h : NeighbourAt ip line) :
    ∃ host, arpHost P wirelessNames line = some host ∧ host.ipAddress = String.ofList ip := by
  obtain ⟨hwtype, flags, mac, mask, iface, rest, hwords, hmac⟩ := h
  unfold arpHost
  rw [hwords]
  dsimp only
  rw [if_neg (fun heq => hmac (beq_iff_eq.mp heq))]
  exact ⟨_, rfl, rfl⟩

theorem neighbourAt_of_arpHost {host : DiscoveredHost}
    (h : arpHost P wirelessNames line = some host) :
    ∃ ip, NeighbourAt ip line ∧ host.ipAddress = String.ofList ip := by
  unfold arpHost at h
  split at h
  · rename_i ip hwtype flags mac mask iface rest hwords
    split at h
    · cases h
    · rename_i hmac
      obtain rfl := Option.some.inj h
      exact ⟨ip, ⟨hwtype, flags, mac, mask, iface, rest, hwords,
        fun heq => hmac (beq_iff_eq.mpr heq)⟩, rfl⟩
  · cases h

theorem discoverHosts_ok_iff {arp wireless : String} :
    (∃ hosts, discoverHosts P arp wireless = .ok hosts) ↔
      ∀ line ∈ (splitlines arp).drop 1, ∀ ip, NeighbourAt ip line → Sortable P ip := by
  have hkey : ∀ host : DiscoveredHost,
      (∃ keyed, (do return (← addressKey P host.ipAddress, host) :
        Except PyExc (List Int × DiscoveredHost)) = .ok keyed) ↔
      ∃ key, addressKey P host.ipAddress = .ok key := by
    intro host
    cases addressKey P host.ipAddress with
    | ok key => exact ⟨fun _ => ⟨key, rfl⟩, fun _ => ⟨(key, host), rfl⟩⟩
    | error e => exact ⟨fun ⟨_, h⟩ => (nomatch h), fun ⟨_, h⟩ => (nomatch h)⟩
  unfold discoverHosts
  dsimp only
  constructor
  · rintro ⟨hosts, h⟩ line hline ip hip
    obtain ⟨host, hhost, haddress⟩ := arpHost_of_neighbourAt P (parseWirelessNames wireless) hip
    rw [← addressKey_ok_iff, ← haddress, ← hkey]
    generalize hkeyed : (((splitlines arp).drop 1).filterMap
      (arpHost P (parseWirelessNames wireless))).mapM (fun host : DiscoveredHost =>
        (do return (← addressKey P host.ipAddress, host) :
          Except PyExc (List Int × DiscoveredHost))) = keyed at h
    cases keyed with
    | error e => cases h
    | ok keyed =>
      exact exists_of_mapM_ok hkeyed host (List.mem_filterMap.mpr ⟨line, hline, hhost⟩)
  · intro h
    have hall : ∀ host ∈ ((splitlines arp).drop 1).filterMap
        (arpHost P (parseWirelessNames wireless)),
        ∃ keyed, (do return (← addressKey P host.ipAddress, host) :
          Except PyExc (List Int × DiscoveredHost)) = .ok keyed := by
      intro host hhost
      obtain ⟨line, hline, hsome⟩ := List.mem_filterMap.mp hhost
      obtain ⟨ip, hip, haddress⟩ := neighbourAt_of_arpHost hsome
      rw [hkey, haddress, addressKey_ok_iff]
      exact h line hline ip hip
    obtain ⟨keyed, hkeyed, -⟩ := mapM_of_exists hall
    rw [hkeyed]
    exact ⟨_, rfl⟩

end Arp

/-! ## The claim about the parsers -/

section Tolerance
variable {P : Platform} {dev wireless route fibTrie arp : String}

theorem listInterfaces_ok_iff :
    (∃ entries, listInterfaces P dev wireless route fibTrie = .ok entries) ↔
      ∀ line ∈ (splitlines dev).drop 2, Measured line → Counted P line := by
  unfold listInterfaces
  constructor
  · rintro ⟨entries, h⟩
    cases hflags : parseFlags P dev route with
    | error e =>
      rw [hflags] at h
      cases h
    | ok flagsMap => exact counted_of_parseFlags hflags
  · intro h
    rw [parseFlags_of_ok h]
    exact ⟨_, rfl⟩

theorem flagsOfLine_unusable {routed : List String} {line : List Char}
    (hok : Measured line → Counted P line) (h : ¬ DevUsable P line) :
    flagsOfLine P routed line = none := by
  have hskipped : ¬ Measured line := fun hmeasured => h ⟨hmeasured, hok hmeasured⟩
  rw [flagsOfLine, lineFlags_skipped hskipped]

theorem parseRoute_unusable {line : List Char} (h : ¬ RouteUsable line) : parseRoute line = none := by
  unfold parseRoute
  split
  · rename_i iface dest gw flags refcnt use metric mask rest hwords
    cases hflags : pyIntBase16 flags with
    | none => rfl
    | some n =>
      dsimp only
      split
      · rfl
      cases hdest : routeHexToBeInt dest with
      | none => rfl
      | some d =>
        cases hmask : routeHexToBeInt mask with
        | none => rfl
        | some m =>
          refine absurd ⟨iface, dest, gw, flags, refcnt, use, metric, mask, rest, hwords, ?_⟩ h
          rw [hflags, hdest, hmask]
          exact ⟨rfl, rfl, rfl⟩
  · rfl

theorem names_sublist {dev' : String} {usable : List Char → Prop}
    (h : LeavesOut usable ((splitlines dev).drop 2) ((splitlines dev').drop 2)) :
    (parseDevNames dev').Sublist (parseDevNames dev) := (h.sublist.map _).filter _

end Tolerance

/-- A line of `dev` with exactly nine columns. -/
def nineColumns : String := "Inter-|   Receive\n face |bytes\n  eth0: 1 2 3 4 5 6 7 8 9\n"

end WolMonkey
