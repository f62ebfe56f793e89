import Mathlib.Data.Bool.AllAny
import WolMonkey.Host.Routes
import WolMonkey.Facts.Execution

/-!
# The listing of the interfaces

`_list_interfaces` joins what four parsers find: names and counters in `dev`, names in
`wireless`, names and networks in `route`, addresses in `fib_trie`. On a file `dev` as the
kernel writes it the parsers agree about every name.
-/

namespace WolMonkey

open WolMonkey.System Programs Program

/-- A line of `/proc/net/dev`: an interface and its counters. -/
structure DevEntry where
  name : String
  counters : Vector Nat 16

namespace DevEntry

def rxPackets (d : DevEntry) : Nat := d.counters[1]

def txPackets (d : DevEntry) : Nat := d.counters[9]

/-- The line shows this entry: the name, padded on the left, a colon, and the counters. -/
def Reads (P : Platform) (line : List Char) (d : DevEntry) : Prop :=
  ∃ pad name rest, line = pad ++ (name ++ ':' :: rest) ∧ (∀ c ∈ pad, isSpace c = true) ∧
    name ≠ [] ∧ (∀ c ∈ name, c ≠ ':' ∧ isSpace c = false) ∧ d.name = String.ofList name ∧
    List.Forall₂ (fun cs (n : Nat) => pyInt P (String.ofList cs) = .ok (n : Int)) (words rest)
      d.counters.toList

/-- The flags that `_parse_flags` gives the interface. -/
def flags (routed : List String) (d : DevEntry) : Flags :=
  { up := routed.contains d.name
    running := (d.rxPackets : Int) > 0 || (d.txPackets : Int) > 0
    loopback := d.name == "lo" }

end DevEntry

/-! ## One line -/

theorem not_colon_of_padded {pad name : List Char} (hpad : ∀ c ∈ pad, isSpace c = true)
    (hname : ∀ c ∈ name, c ≠ ':' ∧ isSpace c = false) : ∀ c ∈ pad ++ name, c ≠ ':' := by
  intro c hc
  rcases List.mem_append.mp hc with hc | hc
  · rintro rfl
    have hspace := hpad _ hc
    revert hspace
    decide
  · exact (hname c hc).1

theorem strip_padded {pad name : List Char} (hpad : ∀ c ∈ pad, isSpace c = true)
    (hname : ∀ c ∈ name, isSpace c = false) : strip isSpace (pad ++ name) = name := by
  have hdrop : (pad ++ name).dropWhile isSpace = name.dropWhile isSpace :=
    List.dropWhile_append_of_pos hpad
  have hself := strip_eq_self hname
  unfold strip at hself ⊢
  rw [hdrop]
  exact hself

theorem takeWhile_colon {before rest : List Char} (h : ∀ c ∈ before, c ≠ ':') :
    (before ++ ':' :: rest).takeWhile (· != ':') = before ∧
      (before ++ ':' :: rest).dropWhile (· != ':') = ':' :: rest := by
  have hpos : ∀ c ∈ before, (c != ':') = true := fun c hc => bne_iff_ne.mpr (h c hc)
  rw [List.takeWhile_append_of_pos hpos, List.dropWhile_append_of_pos hpos]
  exact ⟨List.append_nil before, rfl⟩

theorem counter_of_forall₂ {P : Platform} {parts : List (List Char)} {ns : List Nat}
    (h : List.Forall₂ (fun cs (n : Nat) => pyInt P (String.ofList cs) = .ok (n : Int)) parts ns)
    {i n : Nat} (hi : ns[i]? = some n) : counter P parts i = .ok (n : Int) := by
  induction h generalizing i with
  | nil => cases hi
  | cons hhead _ ih =>
    cases i with
    | zero =>
      obtain rfl := Option.some.inj hi
      unfold counter
      rw [List.getElem?_cons_zero]
      dsimp only
      rw [hhead]
    | succ i => exact ih hi

section Line
variable {P : Platform} {line : List Char} {d : DevEntry}

theorem nameOf_reads (h : d.Reads P line) : nameOf line = d.name ∧ d.name ≠ "" := by
  obtain ⟨pad, name, rest, rfl, hpad, hne, hname, hd, -⟩ := h
  have hbefore := not_colon_of_padded hpad hname
  unfold nameOf
  rw [← List.append_assoc, (takeWhile_colon hbefore).1,
    strip_padded hpad fun c hc => (hname c hc).2, hd]
  refine ⟨rfl, fun hempty => hne ?_⟩
  exact String.ofList_injective hempty

theorem lineFlags_reads (h : d.Reads P line) (routed : List String) :
    lineFlags P routed line = .ok (some (d.name, d.flags routed)) := by
  have hnameOf := (nameOf_reads h).1
  obtain ⟨pad, name, rest, rfl, hpad, hne, hname, hd, hcounters⟩ := h
  have hbefore := not_colon_of_padded hpad hname
  have hcolon : (pad ++ (name ++ ':' :: rest)).contains ':' = true := by
    rw [List.contains_iff_mem]
    exact List.mem_append_right _ (List.mem_append_right _ List.mem_cons_self)
  have hparts : words (((pad ++ (name ++ ':' :: rest)).dropWhile (· != ':')).drop 1) =
      words rest := by
    rw [← List.append_assoc, (takeWhile_colon hbefore).2]
    rfl
  have hlength : ¬ (words rest).length < 9 := by
    rw [hcounters.length_eq, Vector.length_toList]
    decide
  have hrx : counter P (words rest) 1 = .ok (d.rxPackets : Int) :=
    counter_of_forall₂ hcounters (by rw [Vector.getElem?_toList]; rfl)
  have htx : counter P (words rest) 9 = .ok (d.txPackets : Int) :=
    counter_of_forall₂ hcounters (by rw [Vector.getElem?_toList]; rfl)
  unfold lineFlags
  rw [hcolon, Bool.not_true, if_neg Bool.false_ne_true]
  dsimp only
  rw [hparts, if_neg hlength, hrx, htx, hnameOf]
  rfl

end Line

/-! ## The whole files -/

theorem mapM_ok {α β ε : Type} {f : α → Except ε β} {as : List α} {bs : List β}
    (h : List.Forall₂ (fun a b => f a = .ok b) as bs) : as.mapM f = .ok bs := by
  induction h with
  | nil => rfl
  | cons hhead _ ih =>
    rw [List.mapM_cons, hhead, ih]
    rfl

theorem lookup_of_mem {β : Type} {l : List (String × β)} (hkeys : (l.map (·.1)).Nodup)
    {name : String} {b : β} (h : (name, b) ∈ l) : l.lookup name = some b := by
  obtain ⟨before, after, rfl⟩ := List.append_of_mem h
  refine List.lookup_eq_some_iff.mpr ⟨before, after, rfl, fun g hg => ?_⟩
  rw [List.map_append] at hkeys
  refine bne_iff_ne.mpr fun heq => ?_
  exact (List.nodup_append.mp hkeys).2.2 g.1 (List.mem_map_of_mem hg) name
    (List.mem_map_of_mem List.mem_cons_self) heq.symm

/-- The words that start the lines of the route table, and `lo`. -/
def routedNames (route : String) : List String :=
  "lo" :: ((splitlines route).drop 1).filterMap fun line => (words line).head?.map String.ofList

/-- A line of the route table starts with the name. -/
def HasRoute (route name : String) : Prop :=
  ∃ line ∈ (splitlines route).drop 1, (words line).head?.map String.ofList = some name

theorem routedNames_contains {route name : String} :
    (routedNames route).contains name = true ↔ name = "lo" ∨ HasRoute route name := by
  rw [List.contains_iff_mem, routedNames, List.mem_cons, List.mem_filterMap]
  rfl

/-- The addresses that stand under an interface. -/
def addressesOf (fibTrie route name : String) : List String :=
  ((parseIfaceIps fibTrie route).lookup name).getD []

theorem mem_addressesOf {fibTrie route name ip : String} (h : ip ∈ addressesOf fibTrie route name) :
    ∃ cs, ip = String.ofList cs ∧ ifaceOf (keptRoutes route) cs = some name := by
  unfold addressesOf at h
  cases hlookup : (parseIfaceIps fibTrie route).lookup name with
  | none =>
    rw [hlookup] at h
    exact (List.not_mem_nil h).elim
  | some ips =>
    rw [hlookup] at h
    obtain ⟨before, after, hsplit, -⟩ := List.lookup_eq_some_iff.mp hlookup
    have hgroup : (name, ips) ∈ parseIfaceIps fibTrie route := by
      rw [hsplit]
      exact List.mem_append_right _ List.mem_cons_self
    have hlist := (grouped_parseIfaceIps fibTrie route).lists _ hgroup
    rw [Option.getD_some, show ips = _ from hlist] at h
    obtain ⟨cs, hcs, rfl⟩ := List.mem_map.mp h
    exact ⟨cs, rfl, beq_iff_eq.mp (List.mem_filter.mp hcs).2⟩

theorem hasRoute_of_parseRoute {line : List Char} {r : String × Nat × Nat}
    (h : parseRoute line = some r) : (words line).head?.map String.ofList = some r.1 := by
  unfold parseRoute at h
  split at h
  · rename_i hwords
    rw [hwords]
    split at h
    · cases h
    · split at h
      · cases h
      · simp only [Option.bind_eq_bind, Option.bind_eq_some_iff, Option.pure_def,
          Option.some.injEq] at h
        obtain ⟨dest, -, mask, -, rfl⟩ := h
        rfl
  · cases h

/-- An interface with an address has a route. -/
theorem hasRoute_of_ifaceOf {route name : String} {cs : List Char}
    (h : ifaceOf (keptRoutes route) cs = some name) : HasRoute route name := by
  unfold ifaceOf at h
  split at h
  · cases h
  · split at h
    · cases h
    · obtain ⟨r, hfind, rfl⟩ := Option.map_eq_some_iff.mp h
      have hmem := List.mem_of_find?_eq_some hfind
      obtain ⟨line, hline, hparse⟩ := List.mem_filterMap.mp (List.mem_mergeSort.mp hmem)
      exact ⟨line, hline, hasRoute_of_parseRoute hparse⟩

section Listing
variable {P : Platform} {dev route : String} {table : List DevEntry}

theorem parseFlags_eq (P : Platform) (dev route : String) : parseFlags P dev route = do
    let lines ← ((splitlines dev).drop 2).mapM (lineFlags P (routedNames route))
    return (lines.filterMap id).reverse := rfl

theorem parseFlags_reads (hdev : List.Forall₂ (DevEntry.Reads P) ((splitlines dev).drop 2) table) :
    parseFlags P dev route =
      .ok (table.map fun d => (d.name, d.flags (routedNames route))).reverse := by
  have hlines : ((splitlines dev).drop 2).mapM (lineFlags P (routedNames route)) =
      .ok (table.map fun d => some (d.name, d.flags (routedNames route))) := by
    refine mapM_ok (List.forall₂_map_right_iff.mpr (hdev.imp fun line d hline => ?_))
    exact lineFlags_reads hline _
  rw [parseFlags_eq, hlines]
  have hflat : (table.map fun d => some (d.name, d.flags (routedNames route))).filterMap id =
      table.map fun d => (d.name, d.flags (routedNames route)) := by
    rw [List.filterMap_map, ← List.filterMap_eq_map]
    rfl
  exact congrArg (fun l : List (String × Flags) => Except.ok l.reverse) hflat

theorem parseDevNames_reads
    (hdev : List.Forall₂ (DevEntry.Reads P) ((splitlines dev).drop 2) table) :
    parseDevNames dev = table.map DevEntry.name := by
  unfold parseDevNames
  generalize (splitlines dev).drop 2 = lines at hdev
  induction hdev with
  | nil => rfl
  | cons hline _ ih =>
    obtain ⟨hname, hne⟩ := nameOf_reads hline
    rw [List.map_cons, List.filter_cons, hname, if_pos (bne_iff_ne.mpr hne), ih, List.map_cons]

theorem classify_eq_loopback {P : Platform} {line : List Char} {d : DevEntry} (h : d.Reads P line)
    (wireless : List String) : classify d.name wireless = "loopback" ↔ d.name = "lo" := by
  obtain ⟨pad, name, rest, -, -, -, hname, hd, -⟩ := h
  have hcolon : "lo:".toList.isPrefixOf d.name.toList = false := by
    refine (Bool.not_eq_true _).mp fun hprefix => ?_
    have hmem : ':' ∈ d.name.toList :=
      (List.isPrefixOf_iff_prefix.mp hprefix).subset (by decide)
    rw [hd, String.toList_ofList] at hmem
    exact (hname _ hmem).1 rfl
  unfold classify
  simp only [hcolon, Bool.or_false, beq_iff_eq]
  by_cases hlo : d.name = "lo"
  · rw [if_pos hlo]
    exact iff_of_true rfl hlo
  · rw [if_neg hlo]
    refine iff_of_false ?_ hlo
    split_ifs <;> decide

/-- The entry of the listing agrees with the line of the interface and with the route table. -/
structure DevEntry.Consistent (route : String) (d : DevEntry) (e : NetworkInterface) : Prop where
  name : e.name = d.name
  loopback : e.isLoopback = true ↔ e.type = "loopback"
  running : e.isRunning = true ↔ 0 < d.rxPackets ∨ 0 < d.txPackets
  up : e.isUp = true ↔ e.name = "lo" ∨ HasRoute route e.name
  addressed : e.ipAddresses ≠ [] → e.isUp = true

/-- The entry of an interface. -/
def DevEntry.entry (wireless route fibTrie : String) (d : DevEntry) : NetworkInterface :=
  let flags := d.flags (routedNames route)
  let type := classify d.name (parseWirelessNames wireless)
  { name := d.name, type
    isLoopback := flags.loopback
    isVirtual := ["loopback", "veth", "docker-bridge", "bridge"].contains type
    isUp := flags.up
    isRunning := flags.running
    ipAddresses := addressesOf fibTrie route d.name }

theorem listInterfaces_reads {wireless fibTrie : String}
    (hdev : List.Forall₂ (DevEntry.Reads P) ((splitlines dev).drop 2) table)
    (hnames : (table.map DevEntry.name).Nodup) :
    listInterfaces P dev wireless route fibTrie =
      .ok (table.map (DevEntry.entry wireless route fibTrie)) := by
  unfold listInterfaces
  rw [parseFlags_reads hdev, parseDevNames_reads hdev]
  refine congrArg Except.ok ?_
  unfold interfaces
  rw [List.map_map]
  refine List.map_congr_left fun d hd => ?_
  have hlookup : (table.map fun d => (d.name, d.flags (routedNames route))).reverse.lookup d.name =
      some (d.flags (routedNames route)) := by
    refine lookup_of_mem ?_ (List.mem_reverse.mpr (List.mem_map_of_mem hd))
    rw [List.map_reverse, List.map_map]
    exact List.nodup_reverse.mpr hnames
  simp only [Function.comp, hlookup, Option.getD_some]
  rfl

theorem consistent_entry {line : List Char} {d : DevEntry} (h : d.Reads P line)
    (wireless fibTrie : String) : d.Consistent route (d.entry wireless route fibTrie) := by
  have hup : (d.entry wireless route fibTrie).isUp = true ↔ d.name = "lo" ∨ HasRoute route d.name :=
    routedNames_contains
  refine ⟨rfl, ?_, ?_, hup, fun haddressed => ?_⟩
  · exact beq_iff_eq.trans (classify_eq_loopback h _).symm
  · have hrunning : ((d.rxPackets : Int) > 0 || (d.txPackets : Int) > 0) = true ↔
        0 < d.rxPackets ∨ 0 < d.txPackets := by
      rw [Bool.or_eq_true, decide_eq_true_eq, decide_eq_true_eq]
      omega
    exact hrunning
  · obtain ⟨ip, hip⟩ := List.exists_mem_of_ne_nil _ haddressed
    obtain ⟨cs, -, hiface⟩ := mem_addressesOf hip
    exact hup.mpr (Or.inr (hasRoute_of_ifaceOf hiface))

/-- **The listing of the interfaces is consistent**: one entry for each line of `dev` in order,
which agrees with its line, and no address under two entries. -/
theorem listInterfaces_consistent {wireless fibTrie : String}
    (hdev : List.Forall₂ (DevEntry.Reads P) ((splitlines dev).drop 2) table)
    (hnames : (table.map DevEntry.name).Nodup) :
    ∃ entries, listInterfaces P dev wireless route fibTrie = .ok entries ∧
      List.Forall₂ (DevEntry.Consistent route) table entries ∧
      entries.Pairwise fun e e' => ∀ ip ∈ e.ipAddresses, ip ∉ e'.ipAddresses := by
  refine ⟨_, listInterfaces_reads hdev hnames, ?_, ?_⟩
  · have heach : List.Forall₂ (fun d e => d.Consistent route e) table
        (table.map (DevEntry.entry wireless route fibTrie)) := by
      generalize (splitlines dev).drop 2 = lines at hdev
      clear hnames
      induction hdev with
      | nil => exact .nil
      | cons hline _ ih => exact .cons (consistent_entry hline wireless fibTrie) ih
    exact heach
  · rw [List.pairwise_map]
    refine (List.pairwise_map.mp hnames).imp fun {d d'} hne ip hip hip' => ?_
    obtain ⟨cs, rfl, hiface⟩ := mem_addressesOf hip
    obtain ⟨cs', heq, hiface'⟩ := mem_addressesOf hip'
    rw [String.ofList_injective heq, hiface'] at hiface
    exact hne (Option.some.inj hiface).symm

end Listing

/-! ## The endpoint -/

/-- `_list_interfaces` with its files. -/
def readInterfaces (P : Platform) : Code (List NetworkInterface) := do
  let wireless ← await (.readProc "wireless")
  let route ← await (.readProc "route")
  let dev ← await (.readProc "dev")
  let flagsMap ← Api.raiseOr (parseFlags P dev route)
  let fibTrie ← await (.readProc "fib_trie")
  let route ← await (.readProc "route")
  let ipMap := parseIfaceIps fibTrie route
  let dev ← await (.readProc "dev")
  return interfaces (parseWirelessNames wireless) flagsMap ipMap (parseDevNames dev)

/-- The endpoint answers with the listing. -/
theorem api_listInterfaces_eq (P : Platform) (req : Request) :
    Api.listInterfaces P req = getDbSession do
      let _ ← getCurrentUser req
      let entries ← readInterfaces P
      return { body := .interfaces entries } := by
  unfold Api.listInterfaces readInterfaces
  simp only [bind_assoc]
  rfl

/-- What `_list_interfaces` returns or raises when the files do not change meanwhile. -/
theorem readInterfaces_of_snapshot (P : Platform) {S : Type} {s : S} (files : String → String)
    {exec : (op : Op) → S → Except PyExc op.Answer × S}
    (hread : ∀ file s, (exec (.readProc file) s).1 = .ok (files file)) :
    ((readInterfaces P).eval exec s).1 =
      match listInterfaces P (files "dev") (files "wireless") (files "route") (files "fib_trie") with
      | .ok entries => .value entries
      | .error e => .raised e := by
  have hstep : ∀ {α : Type} (file : String) (k : String → Code α) (s : S),
      (await (.readProc file) >>= k).eval exec s =
        (k (files file)).eval exec (exec (.readProc file) s).2 := by
    intro α file k s
    have hawait : (await (.readProc file)).eval exec s =
        (.value (files file), (exec (.readProc file) s).2) := by
      refine (eval_perform (I := app) exec (.readProc file) s).trans ?_
      rw [hread]
    rw [eval_bind, hawait]
  unfold readInterfaces listInterfaces
  rw [hstep, hstep, hstep]
  cases parseFlags P (files "dev") (files "route") with
  | error e => rfl
  | ok flagsMap =>
    refine Eq.trans (congrArg Prod.fst (hstep "fib_trie" _ _)) ?_
    rw [hstep, hstep]
    rfl

/-! ## An example -/

namespace DevSample

def lo : DevEntry :=
  { name := "lo", counters := #v[500, 5, 0, 0, 0, 0, 0, 0, 500, 5, 0, 0, 0, 0, 0, 0] }

def eth0 : DevEntry :=
  { name := "eth0", counters := #v[0, 0, 0, 0, 0, 0, 0, 0, 90, 1, 0, 0, 0, 0, 0, 0] }

def dev : String :=
  "Inter-|   Receive\n face |bytes\n" ++ "    lo: 500 5 0 0 0 0 0 0 500 5 0 0 0 0 0 0\n" ++
  "  eth0: 0 0 0 0 0 0 0 0 90 1 0 0 0 0 0 0\n"

theorem reads : List.Forall₂ (DevEntry.Reads Platform.sample) ((splitlines dev).drop 2)
    [lo, eth0] := by
  have hlines : (splitlines dev).drop 2 = ["    lo: 500 5 0 0 0 0 0 0 500 5 0 0 0 0 0 0".toList,
      "  eth0: 0 0 0 0 0 0 0 0 90 1 0 0 0 0 0 0".toList] := by decide +kernel
  have hlo : words " 500 5 0 0 0 0 0 0 500 5 0 0 0 0 0 0".toList = ["500", "5", "0", "0", "0", "0",
      "0", "0", "500", "5", "0", "0", "0", "0", "0", "0"].map String.toList := by decide +kernel
  have heth0 : words " 0 0 0 0 0 0 0 0 90 1 0 0 0 0 0 0".toList = ["0", "0", "0", "0", "0", "0",
      "0", "0", "90", "1", "0", "0", "0", "0", "0", "0"].map String.toList := by decide +kernel
  have hcounters : ∀ (w : String) (n : Nat), pyInt Platform.sample w = .ok (n : Int) →
      pyInt Platform.sample (String.ofList w.toList) = .ok (n : Int) := by
    intro w n h
    rwa [String.ofList_toList]
  rw [hlines]
  refine .cons ?_ (.cons ?_ .nil)
  · refine ⟨"    ".toList, "lo".toList, " 500 5 0 0 0 0 0 0 500 5 0 0 0 0 0 0".toList, by decide,
      List.all_iff_forall_prop.mp (by decide), by decide, List.all_iff_forall_prop.mp (by decide),
      by decide, ?_⟩
    rw [hlo, List.forall₂_map_left_iff]
    refine List.Forall₂.imp hcounters ?_
    decide +kernel
  · refine ⟨"  ".toList, "eth0".toList, " 0 0 0 0 0 0 0 0 90 1 0 0 0 0 0 0".toList, by decide,
      List.all_iff_forall_prop.mp (by decide), by decide, List.all_iff_forall_prop.mp (by decide),
      by decide, ?_⟩
    rw [heth0, List.forall₂_map_left_iff]
    refine List.Forall₂.imp hcounters ?_
    decide +kernel

end DevSample

theorem listInterfaces_consistent_sample :
    ∃ entries, listInterfaces Platform.sample DevSample.dev "" RouteSample.route RouteSample.fibTrie =
        .ok entries ∧
      List.Forall₂ (DevEntry.Consistent RouteSample.route) [DevSample.lo, DevSample.eth0] entries ∧
      entries.Pairwise fun e e' => ∀ ip ∈ e.ipAddresses, ip ∉ e'.ipAddresses :=
  listInterfaces_consistent DevSample.reads (by decide)

end WolMonkey
