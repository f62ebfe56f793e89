import WolMonkey.Host.Ipv4
import WolMonkey.Library.StableOrder
import Mathlib.Data.Nat.Basic
import Mathlib.Data.List.Dedup

/-!
# Longest prefix match

`_parse_iface_ips` assigns the addresses that it has collected to interfaces. Every address
goes to one interface: that of the up-route with the longest matching prefix, and of the
first one in the table when several are equally long.
-/

namespace WolMonkey

open WolMonkey.System StableOrders

/-! ## The route table -/

/-- A route with a contiguous mask, as the kernel shows it. -/
structure RouteEntry where
  iface : String
  dest : Ipv4
  len : Nat
  flags : Int
  len_le : len ≤ 32
deriving DecidableEq

namespace RouteEntry

/-- The flag `RTF_UP`. -/
def up (r : RouteEntry) : Bool := r.flags % 2 == 1

/-- The first `len` bits of the address are those of the destination. -/
def Matches (r : RouteEntry) (x : Ipv4) : Prop := Ipv4.Agrees r.len x r.dest

instance (r : RouteEntry) (x : Ipv4) : Decidable (r.Matches x) :=
  inferInstanceAs (Decidable (Ipv4.Agrees r.len x r.dest))

end RouteEntry

/-- A line of the table: a route, or text that is none. -/
inductive TableLine where
  | route (r : RouteEntry)
  | malformed

namespace TableLine

/-- The line shows this: in the columns of a route stand its interface, its destination and
its mask with the octets in the other order, and its flags; a malformed line has too few
columns, or one of them is not a number that fits. -/
def Reads (line : List Char) : TableLine → Prop
  | route r => ∃ iface dest gw flags refcnt use metric mask rest,
      words line = iface :: dest :: gw :: flags :: refcnt :: use :: metric :: mask :: rest ∧
        String.ofList iface = r.iface ∧
        pyIntBase16 dest = some (Ipv4.littleEndian r.dest : Int) ∧
        pyIntBase16 flags = some r.flags ∧
        pyIntBase16 mask = some (Ipv4.littleEndian (Ipv4.mask r.len) : Int)
  | malformed => ∀ iface dest gw flags refcnt use metric mask rest,
      words line = iface :: dest :: gw :: flags :: refcnt :: use :: metric :: mask :: rest →
        pyIntBase16 flags = none ∨ routeHexToBeInt dest = none ∨ routeHexToBeInt mask = none

/-- The route of the line, if it is up. -/
def up? : TableLine → Option RouteEntry
  | route r => if r.up then some r else none
  | malformed => none

end TableLine

/-- The routes of a table that are up, in order. -/
def upRoutes (table : List TableLine) : List RouteEntry := table.filterMap TableLine.up?

/-- The route with the longest prefix that matches, the first one of these. -/
def LongestMatch (routes : List RouteEntry) (x : Ipv4) (r : RouteEntry) : Prop :=
  routes.find? (fun r' => decide (r'.Matches x) && r'.len == r.len) = some r ∧
    ∀ r' ∈ routes, r'.Matches x → r'.len ≤ r.len

/-- What `_parse_iface_ips` keeps of a route. -/
def RouteEntry.parsed (r : RouteEntry) : String × Nat × Nat :=
  (r.iface, r.dest.toNat, (Ipv4.mask r.len).toNat)

theorem parseRoute_of_reads {line : List Char} {t : TableLine} (h : t.Reads line) :
    parseRoute line = t.up?.map RouteEntry.parsed := by
  cases t with
  | route r =>
    obtain ⟨iface, dest, gw, flags, refcnt, use, metric, mask, rest, hwords, hiface, hdest,
      hflags, hmask⟩ := h
    unfold parseRoute
    rw [hwords]
    simp only [hflags, TableLine.up?, RouteEntry.up, beq_iff_eq]
    by_cases hup : r.flags % 2 = 1
    · have hodd : ¬ r.flags % 2 = 0 := by omega
      rw [if_neg hodd, if_pos hup, Ipv4.routeHexToBeInt_of_littleEndian hdest,
        Ipv4.routeHexToBeInt_of_littleEndian hmask, hiface]
      rfl
    · have heven : r.flags % 2 = 0 := by omega
      rw [if_pos heven, if_neg hup]
      rfl
  | malformed =>
    unfold parseRoute
    split
    · rename_i iface dest gw flags refcnt use metric mask rest hwords
      rcases h _ _ _ _ _ _ _ _ _ hwords with hnone | hnone | hnone
      · rw [hnone]
        rfl
      · split
        · rfl
        · split
          · rfl
          · rw [hnone]
            rfl
      · split
        · rfl
        · split
          · rfl
          · rw [hnone]
            cases routeHexToBeInt dest <;> rfl
    · rfl

theorem parseRoutes_of_reads {lines : List (List Char)} {table : List TableLine}
    (h : List.Forall₂ (fun line t => TableLine.Reads line t) lines table) :
    lines.filterMap parseRoute = (upRoutes table).map RouteEntry.parsed := by
  unfold upRoutes
  induction h with
  | nil => rfl
  | @cons line t lines table hline _ ih =>
    rw [List.filterMap_cons, List.filterMap_cons, parseRoute_of_reads hline, ih]
    cases t.up? <;> rfl

/-! ## The search for an interface -/

/-- The addresses that are never assigned. -/
def excluded (ip : List Char) : Bool :=
  "127.".toList.isPrefixOf ip || ".0".toList.isSuffixOf ip || ".255".toList.isSuffixOf ip

theorem and_parsed_eq (r : RouteEntry) (x : Ipv4) :
    (x.toNat &&& r.parsed.2.2 == r.parsed.2.1 &&& r.parsed.2.2) = decide (r.Matches x) := by
  have hmask : x.toNat &&& (Ipv4.mask r.len).toNat = r.dest.toNat &&& (Ipv4.mask r.len).toNat ↔
      r.Matches x := by
    rw [← BitVec.toNat_and, ← BitVec.toNat_and, ← BitVec.toNat_eq]
    exact Ipv4.and_mask_eq_iff r.len_le x r.dest
  by_cases h : r.Matches x
  · rw [decide_eq_true h, beq_iff_eq]
    exact hmask.mpr h
  · rw [decide_eq_false h, beq_eq_false_iff_ne]
    exact fun heq => h (hmask.mp heq)

/-- The routes are sorted by the lengths of their prefixes. -/
theorem sortRoutes_parsed (routes : List RouteEntry) :
    sortRoutes (routes.map RouteEntry.parsed) =
      (routes.mergeSort (descending RouteEntry.len)).map RouteEntry.parsed := by
  refine (List.map_mergeSort fun a _ b _ => ?_).symm
  simp only [RouteEntry.parsed, descending, Ipv4.bitCount_mask a.len_le,
    Ipv4.bitCount_mask b.len_le]

theorem ifaceOf_text (routes : List RouteEntry) {x : Ipv4} (h : excluded x.text = false) :
    ifaceOf (sortRoutes (routes.map RouteEntry.parsed)) x.text =
      ((routes.mergeSort (descending RouteEntry.len)).find? fun r => decide (r.Matches x)).map
        RouteEntry.iface := by
  unfold ifaceOf
  rw [show ("127.".toList.isPrefixOf x.text || ".0".toList.isSuffixOf x.text ||
    ".255".toList.isSuffixOf x.text) = false from h, if_neg Bool.false_ne_true, Ipv4.inetAton_text,
    sortRoutes_parsed]
  dsimp only
  rw [List.find?_map, Option.map_map]
  have hpred : ((fun r : String × Nat × Nat => x.toNat &&& r.2.2 == r.2.1 &&& r.2.2) ∘
      RouteEntry.parsed) = fun r => decide (r.Matches x) := funext fun r => and_parsed_eq r x
  rw [hpred]
  rfl

theorem not_excluded_of_ifaceOf {routes : List (String × Nat × Nat)} {ip : List Char}
    {iface : String} (h : ifaceOf routes ip = some iface) : excluded ip = false := by
  unfold ifaceOf at h
  split at h
  · cases h
  · rename_i hkept
    exact (Bool.not_eq_true _).mp hkept

theorem longestMatch_of_ifaceOf {routes : List RouteEntry} {x : Ipv4} {iface : String}
    (h : ifaceOf (sortRoutes (routes.map RouteEntry.parsed)) x.text = some iface) :
    ∃ r, LongestMatch routes x r ∧ r.iface = iface := by
  rw [ifaceOf_text routes (not_excluded_of_ifaceOf h), Option.map_eq_some_iff] at h
  obtain ⟨r, hfind, hiface⟩ := h
  obtain ⟨hfirst, hbest⟩ := find?_mergeSort_descending hfind
  exact ⟨r, ⟨hfirst, fun r' hr' hmatches => hbest r' hr' (decide_eq_true hmatches)⟩, hiface⟩

theorem not_matches_of_ifaceOf {routes : List RouteEntry} {x : Ipv4}
    (hkept : excluded x.text = false)
    (h : ifaceOf (sortRoutes (routes.map RouteEntry.parsed)) x.text = none) :
    ∀ r ∈ routes, ¬ r.Matches x := by
  rw [ifaceOf_text routes hkept, Option.map_eq_none_iff] at h
  exact fun r hr => of_decide_eq_false (find?_mergeSort_eq_none h r hr)

/-! ## Grouping by interface -/

/-- The groups of the addresses that have an interface: one group for each interface, with its
addresses in order. -/
structure Grouped (assign : List Char → Option String) (ips : List (List Char))
    (result : List (String × List String)) : Prop where
  keys : (result.map (·.1)).Nodup
  lists : ∀ g ∈ result, g.2 = (ips.filter fun ip => assign ip == some g.1).map String.ofList
  covers : ∀ ip ∈ ips, ∀ iface, assign ip = some iface → ∃ g ∈ result, g.1 = iface

/-- One round of the loop that assigns the addresses. -/
def assignOne (assign : List Char → Option String) (result : List (String × List String))
    (ip : List Char) : List (String × List String) :=
  match assign ip with
  | some iface => appendIp result iface (String.ofList ip)
  | none => result

section Grouping
variable {assign : List Char → Option String} {ips : List (List Char)}
  {result : List (String × List String)}

theorem keys_appendIp (result : List (String × List String)) (iface ip : String) :
    (appendIp result iface ip).map (·.1) =
      if result.any (·.1 == iface) then result.map (·.1) else result.map (·.1) ++ [iface] := by
  unfold appendIp
  split
  · rw [List.map_map]
    refine List.map_congr_left fun g _ => ?_
    simp only [Function.comp]
    split <;> rfl
  · rw [List.map_append]
    rfl

theorem Grouped.step (h : Grouped assign ips result) (ip : List Char) :
    Grouped assign (ips ++ [ip]) (assignOne assign result ip) := by
  unfold assignOne
  cases hassign : assign ip with
  | none =>
    refine ⟨h.keys, fun g hg => ?_, fun ip' hip' iface hiface => ?_⟩
    · rw [h.lists g hg, List.filter_append, List.filter_cons_of_neg, List.filter_nil,
        List.append_nil]
      rw [hassign]
      exact Bool.false_ne_true
    · rcases List.mem_append.mp hip' with hip' | hip'
      · exact h.covers ip' hip' iface hiface
      · rw [List.mem_singleton.mp hip', hassign] at hiface
        cases hiface
  | some iface =>
    dsimp only
    have hnew : ∀ name, [ip].filter (fun ip => assign ip == some name) =
        if iface == name then [ip] else [] := by
      intro name
      rw [List.filter_singleton, hassign, Bool.cond_eq_ite]
      rfl
    by_cases hany : result.any (·.1 == iface) = true
    · refine ⟨?_, fun g hg => ?_, fun ip' hip' name hname => ?_⟩
      · rw [keys_appendIp, if_pos hany]
        exact h.keys
      · unfold appendIp at hg
        rw [if_pos hany] at hg
        obtain ⟨g', hg', rfl⟩ := List.mem_map.mp hg
        have hlist := h.lists g' hg'
        by_cases hkey : g'.1 = iface
        · rw [if_pos (beq_iff_eq.mpr hkey)]
          dsimp only
          rw [List.filter_append, List.map_append, ← hlist, hnew, hkey, beq_self_eq_true]
          rfl
        · rw [if_neg (fun heq => hkey (beq_iff_eq.mp heq)), List.filter_append, hnew,
            if_neg (fun heq => hkey (beq_iff_eq.mp heq).symm), List.append_nil]
          exact hlist
      · have hgroup : ∃ g ∈ result, g.1 = name := by
          rcases List.mem_append.mp hip' with hip' | hip'
          · exact h.covers ip' hip' name hname
          · rw [List.mem_singleton.mp hip', hassign, Option.some.injEq] at hname
            obtain ⟨g, hg, hkey⟩ := List.any_eq_true.mp hany
            exact ⟨g, hg, (beq_iff_eq.mp hkey).trans hname⟩
        have hmem : name ∈ (appendIp result iface (String.ofList ip)).map (·.1) := by
          rw [keys_appendIp, if_pos hany]
          obtain ⟨g, hg, hkey⟩ := hgroup
          exact List.mem_map.mpr ⟨g, hg, hkey⟩
        exact List.mem_map.mp hmem
    · have hfresh : ∀ g ∈ result, g.1 ≠ iface := fun g hg hkey =>
        hany (List.any_eq_true.mpr ⟨g, hg, beq_iff_eq.mpr hkey⟩)
      unfold appendIp
      rw [if_neg hany]
      refine ⟨?_, fun g hg => ?_, fun ip' hip' name hname => ?_⟩
      · rw [List.map_append]
        refine List.nodup_append.mpr ⟨h.keys, List.nodup_singleton _, fun a ha b hb heq => ?_⟩
        obtain ⟨g, hg, rfl⟩ := List.mem_map.mp ha
        exact hfresh g hg (heq.trans (List.mem_singleton.mp hb))
      · rcases List.mem_append.mp hg with hg | hg
        · rw [List.filter_append, hnew, if_neg (fun heq => hfresh g hg (beq_iff_eq.mp heq).symm),
            List.append_nil]
          exact h.lists g hg
        · rw [List.mem_singleton.mp hg]
          have hnone : ips.filter (fun ip => assign ip == some iface) = [] := by
            refine List.filter_eq_nil_iff.mpr fun ip' hip' heq => ?_
            obtain ⟨g', hg', hkey⟩ := h.covers ip' hip' iface (beq_iff_eq.mp heq)
            exact hfresh g' hg' hkey
          rw [List.filter_append, hnone, hnew, beq_self_eq_true]
          rfl
      · rcases List.mem_append.mp hip' with hip' | hip'
        · obtain ⟨g, hg, hkey⟩ := h.covers ip' hip' name hname
          exact ⟨g, List.mem_append_left _ hg, hkey⟩
        · rw [List.mem_singleton.mp hip', hassign, Option.some.injEq] at hname
          exact ⟨_, List.mem_append_right _ List.mem_cons_self, hname⟩

theorem grouped_foldl {more : List (List Char)} (h : Grouped assign ips result) :
    Grouped assign (ips ++ more) (more.foldl (assignOne assign) result) := by
  induction more generalizing ips result with
  | nil =>
    rw [List.append_nil]
    exact h
  | cons ip more ih =>
    have hstep := ih (h.step ip)
    rwa [List.append_assoc] at hstep

/-- No address stands in two groups, or twice in one. -/
theorem Grouped.nodup (h : Grouped assign ips result) (hips : ips.Nodup) :
    (result.flatMap (·.2)).Nodup := by
  refine List.nodup_flatMap.mpr ⟨fun g hg => ?_, ?_⟩
  · rw [h.lists g hg]
    exact (hips.filter _).map fun a b heq => String.ofList_injective heq
  · have hkeys := List.pairwise_map.mp h.keys
    refine hkeys.imp_of_mem fun {g g'} hg hg' hne ip hip hip' => ?_
    dsimp only at hip hip'
    rw [h.lists g hg] at hip
    rw [h.lists g' hg'] at hip'
    obtain ⟨cs, hcs, rfl⟩ := List.mem_map.mp hip
    obtain ⟨cs', hcs', heq⟩ := List.mem_map.mp hip'
    rw [String.ofList_injective heq] at hcs'
    have hfirst := beq_iff_eq.mp (List.mem_filter.mp hcs).2
    have hsecond := beq_iff_eq.mp (List.mem_filter.mp hcs').2
    exact hne (Option.some.inj (hfirst.symm.trans hsecond))

theorem Grouped.mem_iff (h : Grouped assign ips result) {ip : List Char} :
    (∃ g ∈ result, String.ofList ip ∈ g.2) ↔ ip ∈ ips ∧ ∃ iface, assign ip = some iface := by
  constructor
  · rintro ⟨g, hg, hip⟩
    rw [h.lists g hg] at hip
    obtain ⟨cs, hcs, heq⟩ := List.mem_map.mp hip
    obtain rfl := String.ofList_injective heq
    exact ⟨(List.mem_filter.mp hcs).1, g.1, beq_iff_eq.mp (List.mem_filter.mp hcs).2⟩
  · rintro ⟨hmem, iface, hassign⟩
    obtain ⟨g, hg, rfl⟩ := h.covers ip hmem iface hassign
    refine ⟨g, hg, ?_⟩
    rw [h.lists g hg]
    exact List.mem_map_of_mem (List.mem_filter.mpr ⟨hmem, beq_iff_eq.mpr hassign⟩)

end Grouping

/-! ## The result -/

/-- The routes that `_parse_iface_ips` keeps, in its order. -/
def keptRoutes (route : String) : List (String × Nat × Nat) :=
  sortRoutes (((splitlines route).drop 1).filterMap parseRoute)

theorem grouped_parseIfaceIps (fibTrie route : String) :
    Grouped (ifaceOf (keptRoutes route)) (localIps none (splitlines fibTrie)).dedup
      (parseIfaceIps fibTrie route) := by
  have hempty : Grouped (ifaceOf (keptRoutes route)) [] [] :=
    ⟨List.nodup_nil, fun _ h => (List.not_mem_nil h).elim, fun _ h => (List.not_mem_nil h).elim⟩
  exact grouped_foldl hempty

/-! ## The scanner -/

/-- The line that makes the address of the line before it a local one. -/
def isLocal (line : List Char) : Bool := contains "/32 host LOCAL".toList line

section Scanner
variable {line : List Char} {lines : List (List Char)} {prev : Option (List Char)} {ip : List Char}

theorem localIps_leaf (hleaf : leafAddress line = some ip) :
    localIps prev (line :: lines) = localIps (some ip) lines := by
  rw [localIps.eq_def]
  dsimp only
  rw [hleaf]

theorem localIps_local (hleaf : leafAddress line = none) (hlocal : isLocal line = true) :
    localIps (some ip) (line :: lines) = ip :: localIps none lines := by
  rw [localIps.eq_def]
  dsimp only
  rw [hleaf]
  exact if_pos hlocal

theorem localIps_other (hleaf : leafAddress line = none)
    (hother : prev = none ∨ isLocal line = false) :
    localIps prev (line :: lines) = localIps none lines := by
  rw [localIps.eq_def]
  dsimp only
  rw [hleaf]
  dsimp only
  rcases hother with rfl | hother
  · rfl
  · cases prev with
    | none => rfl
    | some ip => exact if_neg (Bool.eq_false_iff.mp hother)

theorem exists_of_mem_localIps (h : ip ∈ localIps prev lines) :
    prev = some ip ∨ ∃ line ∈ lines, leafAddress line = some ip := by
  induction lines generalizing prev with
  | nil =>
    rw [localIps] at h
    exact (List.not_mem_nil h).elim
  | cons line lines ih =>
    have hlater : ∀ {prev}, ip ∈ localIps prev lines → prev = some ip ∨
        ∃ line' ∈ line :: lines, leafAddress line' = some ip := fun hmem =>
      (ih hmem).imp_right fun ⟨line', hline', hleaf⟩ => ⟨line', List.mem_cons_of_mem _ hline', hleaf⟩
    cases hleaf : leafAddress line with
    | some leaf =>
      rw [localIps_leaf hleaf] at h
      rcases hlater h with heq | hex
      · exact Or.inr ⟨line, List.mem_cons_self, hleaf.trans heq⟩
      · exact Or.inr hex
    | none =>
      have hreset : ip ∈ localIps none lines → prev = some ip ∨
          ∃ line' ∈ line :: lines, leafAddress line' = some ip := fun hmem =>
        Or.inr ((hlater hmem).resolve_left nofun)
      by_cases hother : prev = none ∨ isLocal line = false
      · rw [localIps_other hleaf hother] at h
        exact hreset h
      · obtain ⟨hprev, hlocal⟩ := not_or.mp hother
        obtain ⟨last, rfl⟩ := Option.ne_none_iff_exists'.mp hprev
        rw [localIps_local hleaf ((Bool.not_eq_false _).mp hlocal)] at h
        rcases List.mem_cons.mp h with rfl | h
        · exact Or.inl rfl
        · exact hreset h

end Scanner

/-- The leaves of `fib_trie` are addresses in their canonical text. -/
def CanonicalLeaves (fibTrie : String) : Prop :=
  ∀ line ∈ splitlines fibTrie, ∀ ip, leafAddress line = some ip → ∃ x : Ipv4, ip = x.text

theorem CanonicalLeaves.of_mem {fibTrie : String} (h : CanonicalLeaves fibTrie) {ip : List Char}
    (hip : ip ∈ localIps none (splitlines fibTrie)) : ∃ x : Ipv4, ip = x.text := by
  obtain ⟨line, hline, hleaf⟩ := (exists_of_mem_localIps hip).resolve_left nofun
  exact h line hline ip hleaf

/-- **Longest prefix match.** Every address of the result stands there once, under the
interface of the first of the longest matching up-routes; an address that is collected and not
excluded is missing only if no up-route matches. -/
theorem parseIfaceIps_longest_prefix {fibTrie route : String} {table : List TableLine}
    (hleaves : CanonicalLeaves fibTrie)
    (htable : List.Forall₂ TableLine.Reads ((splitlines route).drop 1) table) :
    (∀ g ∈ parseIfaceIps fibTrie route, ∀ ip ∈ g.2,
      ((parseIfaceIps fibTrie route).flatMap (·.2)).count ip = 1 ∧
        ∃ x r, ip = String.ofList x.text ∧ LongestMatch (upRoutes table) x r ∧ r.iface = g.1) ∧
    ∀ x : Ipv4, x.text ∈ localIps none (splitlines fibTrie) → excluded x.text = false →
      (∀ g ∈ parseIfaceIps fibTrie route, String.ofList x.text ∉ g.2) →
        ∀ r ∈ upRoutes table, ¬ r.Matches x := by
  have hgrouped := grouped_parseIfaceIps fibTrie route
  have hroutes : keptRoutes route = sortRoutes ((upRoutes table).map RouteEntry.parsed) :=
    congrArg sortRoutes (parseRoutes_of_reads htable)
  constructor
  · intro g hg ip hip
    have hflat : ip ∈ (parseIfaceIps fibTrie route).flatMap (·.2) := List.mem_flatMap.mpr ⟨g, hg, hip⟩
    refine ⟨List.count_eq_one_of_mem (hgrouped.nodup (List.nodup_dedup _)) hflat, ?_⟩
    rw [hgrouped.lists g hg] at hip
    obtain ⟨cs, hcs, rfl⟩ := List.mem_map.mp hip
    obtain ⟨hmem, hassign⟩ := List.mem_filter.mp hcs
    obtain ⟨x, rfl⟩ := hleaves.of_mem (List.mem_dedup.mp hmem)
    rw [hroutes, beq_iff_eq] at hassign
    obtain ⟨r, hlongest, hiface⟩ := longestMatch_of_ifaceOf hassign
    exact ⟨x, r, rfl, hlongest, hiface⟩
  · intro x hmem hkept hmissing
    refine not_matches_of_ifaceOf hkept ?_
    by_contra hsome
    obtain ⟨iface, hiface⟩ := Option.ne_none_iff_exists'.mp hsome
    rw [← hroutes] at hiface
    obtain ⟨g, hg, hip⟩ := hgrouped.mem_iff.mpr ⟨List.mem_dedup.mpr hmem, iface, hiface⟩
    exact hmissing g hg hip

/-! ## An example -/

namespace RouteSample

def fibTrie : String := "Main:\n  +-- 0.0.0.0/0 3 0 5\n     |-- 10.0.1.5\n        /32 host LOCAL\n"

def route : String :=
  "Iface Destination Gateway Flags RefCnt Use Metric Mask MTU Window IRTT\n" ++
  "lost\n" ++
  "eth0 00000000 0100000A 0003 0 0 0 00000000 0 0 0\n" ++
  "eth1 0000000A 00000000 0001 0 0 0 000000FF 0 0 0\n"

def default : RouteEntry :=
  { iface := "eth0", dest := 0#32, len := 0, flags := 3, len_le := by decide }

def net : RouteEntry :=
  { iface := "eth1", dest := 0x0A000000#32, len := 8, flags := 1, len_le := by decide }

def table : List TableLine := [.malformed, .route default, .route net]

theorem canonicalLeaves : CanonicalLeaves fibTrie := by
  have hleaves : ∀ line ∈ splitlines fibTrie, leafAddress line = none ∨
      leafAddress line = some (Ipv4.text 0x0A000105#32) := by decide +kernel
  intro line hline ip hip
  rcases hleaves line hline with hnone | hsome
  · rw [hnone] at hip
    cases hip
  · exact ⟨_, Option.some.inj (hip.symm.trans hsome)⟩

theorem reads : List.Forall₂ TableLine.Reads ((splitlines route).drop 1) table := by
  have hlines : (splitlines route).drop 1 = ["lost".toList,
      "eth0 00000000 0100000A 0003 0 0 0 00000000 0 0 0".toList,
      "eth1 0000000A 00000000 0001 0 0 0 000000FF 0 0 0".toList] := by decide +kernel
  rw [hlines]
  refine .cons (fun _ _ _ _ _ _ _ _ _ hwords => ?_) (.cons ?_ (.cons ?_ .nil))
  · have hshort : words "lost".toList = ["lost".toList] := by decide
    rw [hshort] at hwords
    cases hwords
  · exact ⟨"eth0".toList, "00000000".toList, "0100000A".toList, "0003".toList, "0".toList,
      "0".toList, "0".toList, "00000000".toList, ["0".toList, "0".toList, "0".toList], by decide, by decide,
      Ipv4.pyIntBase16_hexWord (by decide), by decide, Ipv4.pyIntBase16_hexWord (by decide)⟩
  · exact ⟨"eth1".toList, "0000000A".toList, "00000000".toList, "0001".toList, "0".toList,
      "0".toList, "0".toList, "000000FF".toList, ["0".toList, "0".toList, "0".toList], by decide, by decide,
      Ipv4.pyIntBase16_hexWord (by decide), by decide, Ipv4.pyIntBase16_hexWord (by decide)⟩

end RouteSample

theorem parseIfaceIps_longest_prefix_sample :
    (∀ g ∈ parseIfaceIps RouteSample.fibTrie RouteSample.route, ∀ ip ∈ g.2,
      ((parseIfaceIps RouteSample.fibTrie RouteSample.route).flatMap (·.2)).count ip = 1 ∧
        ∃ x r, ip = String.ofList x.text ∧ LongestMatch (upRoutes RouteSample.table) x r ∧
          r.iface = g.1) ∧
    ∀ x : Ipv4, x.text ∈ localIps none (splitlines RouteSample.fibTrie) →
      excluded x.text = false →
      (∀ g ∈ parseIfaceIps RouteSample.fibTrie RouteSample.route, String.ofList x.text ∉ g.2) →
        ∀ r ∈ upRoutes RouteSample.table, ¬ r.Matches x :=
  parseIfaceIps_longest_prefix RouteSample.canonicalLeaves RouteSample.reads

end WolMonkey
