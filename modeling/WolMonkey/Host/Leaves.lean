import WolMonkey.Host.Routes

/-!
# Local addresses of the leaves

`fib_trie` shows a leaf as its address and the prefixes that are stored there, one on each
line. A host address has the prefix `/32 host LOCAL`. The scanner of `_parse_iface_ips` looks at
the first prefix of a leaf only, and what it takes for the address of a network or a broadcast
address is what ends in `.0` or `.255`, whatever the mask of the route.
-/

namespace WolMonkey

open WolMonkey.System

/-- A leaf with its prefixes. -/
structure LeafBlock where
  address : Ipv4
  leaf : List Char
  first : List Char
  more : List (List Char)
  leaf_address : leafAddress leaf = some address.text
  prefixes_no_leaf : ∀ line ∈ first :: more, leafAddress line = none

namespace LeafBlock

/-- The lines of the prefixes. -/
def prefixLines (b : LeafBlock) : List (List Char) := b.first :: b.more

def lines (b : LeafBlock) : List (List Char) := b.leaf :: b.prefixLines

/-- One of the prefixes is that of a host address. -/
def IsHost (b : LeafBlock) : Prop := ∃ line ∈ b.prefixLines, isLocal line = true

/-- The first prefix is that of a host address. -/
def StartsLocal (b : LeafBlock) : Prop := isLocal b.first = true

instance (b : LeafBlock) : Decidable b.StartsLocal := inferInstanceAs (Decidable (_ = _))

end LeafBlock

namespace RouteEntry

/-- The first address of the network of a route. -/
def network (r : RouteEntry) : Ipv4 := r.dest &&& Ipv4.mask r.len

/-- The last address of the network of a route. -/
def broadcast (r : RouteEntry) : Ipv4 := r.dest ||| ~~~Ipv4.mask r.len

end RouteEntry

/-- An address of the host: local in its leaf, not a loopback address, matched by an up-route,
and neither end of the network of its longest match. -/
structure HostAddress (blocks : List LeafBlock) (routes : List RouteEntry) (x : Ipv4) : Prop where
  leaf : ∃ b ∈ blocks, b.address = x ∧ b.IsHost
  not_loopback : "127.".toList.isPrefixOf x.text = false
  routed : ∃ r, LongestMatch routes x r ∧ x ≠ r.network ∧ x ≠ r.broadcast

/-- The address stands in the result of `_parse_iface_ips`. -/
def Listed (fibTrie route : String) (x : Ipv4) : Prop :=
  ∃ g ∈ parseIfaceIps fibTrie route, String.ofList x.text ∈ g.2

/-- The text of the address ends like that of the network or the broadcast address of a network
whose mask has 24 bits. -/
def EndsLikeNet (x : Ipv4) : Prop :=
  ".0".toList.isSuffixOf x.text = true ∨ ".255".toList.isSuffixOf x.text = true

/-! ## The scanner on blocks -/

/-- Lines without a leaf leave nothing behind. -/
theorem localIps_none_append {lines rest : List (List Char)}
    (h : ∀ line ∈ lines, leafAddress line = none) :
    localIps none (lines ++ rest) = localIps none rest := by
  induction lines with
  | nil => rfl
  | cons line lines ih =>
    rw [List.cons_append, localIps_other (h line List.mem_cons_self) (Or.inl rfl)]
    exact ih fun line' hline' => h line' (List.mem_cons_of_mem _ hline')

theorem localIps_block (b : LeafBlock) (rest : List (List Char)) :
    localIps none (b.lines ++ rest) =
      if b.StartsLocal then b.address.text :: localIps none rest else localIps none rest := by
  have hfirst := b.prefixes_no_leaf b.first List.mem_cons_self
  have hmore : localIps none (b.more ++ rest) = localIps none rest :=
    localIps_none_append fun line hline => b.prefixes_no_leaf line (List.mem_cons_of_mem _ hline)
  rw [LeafBlock.lines, LeafBlock.prefixLines, List.cons_append, List.cons_append,
    localIps_leaf b.leaf_address]
  by_cases hlocal : b.StartsLocal
  · rw [if_pos hlocal, localIps_local hfirst hlocal, hmore]
  · rw [if_neg hlocal, localIps_other hfirst (Or.inr ((Bool.not_eq_true _).mp hlocal)), hmore]

/-- The scanner collects the addresses of the leaves whose first prefix is that of a host. -/
theorem localIps_blocks (blocks : List LeafBlock) :
    localIps none (blocks.flatMap LeafBlock.lines) =
      (blocks.filter fun b => decide b.StartsLocal).map fun b => b.address.text := by
  induction blocks with
  | nil => rw [List.flatMap_nil, localIps, List.filter_nil, List.map_nil]
  | cons b blocks ih =>
    rw [List.flatMap_cons, localIps_block, ih]
    by_cases hlocal : b.StartsLocal
    · rw [if_pos hlocal, List.filter_cons, if_pos (decide_eq_true hlocal), List.map_cons]
    · rw [if_neg hlocal, List.filter_cons, if_neg (fun heq => hlocal (of_decide_eq_true heq))]

theorem mem_localIps_blocks {blocks : List LeafBlock} {x : Ipv4} :
    x.text ∈ localIps none (blocks.flatMap LeafBlock.lines) ↔
      ∃ b ∈ blocks, b.address = x ∧ b.StartsLocal := by
  rw [localIps_blocks]
  constructor
  · intro hmem
    obtain ⟨b, hb, htext⟩ := List.mem_map.mp hmem
    obtain ⟨hb, hlocal⟩ := List.mem_filter.mp hb
    exact ⟨b, hb, Ipv4.text_injective htext, of_decide_eq_true hlocal⟩
  · rintro ⟨b, hb, rfl, hlocal⟩
    exact List.mem_map.mpr ⟨b, List.mem_filter.mpr ⟨hb, decide_eq_true hlocal⟩, rfl⟩

/-! ## The host addresses that are listed -/

theorem excluded_eq_false_iff {x : Ipv4} (h : "127.".toList.isPrefixOf x.text = false) :
    excluded x.text = false ↔ ¬ EndsLikeNet x := by
  unfold excluded EndsLikeNet
  rw [h, Bool.false_or, Bool.or_eq_false_iff, not_or, Bool.not_eq_true, Bool.not_eq_true]

theorem LongestMatch.matches {routes : List RouteEntry} {x : Ipv4} {r : RouteEntry}
    (h : LongestMatch routes x r) : r ∈ routes ∧ r.Matches x := by
  have hfound := List.find?_some h.1
  simp only [Bool.and_eq_true, decide_eq_true_eq] at hfound
  exact ⟨List.mem_of_find?_eq_some h.1, hfound.1⟩

theorem listed_iff {fibTrie route : String} {x : Ipv4} :
    Listed fibTrie route x ↔ x.text ∈ localIps none (splitlines fibTrie) ∧
      ∃ iface, ifaceOf (keptRoutes route) x.text = some iface := by
  unfold Listed
  rw [(grouped_parseIfaceIps fibTrie route).mem_iff, List.mem_dedup]

/-- **The host addresses that are listed**: those that have a leaf with the prefix
`/32 host LOCAL` in the first place, and do not end in `.0` or `.255`. -/
theorem listed_iff_of_hostAddress {fibTrie route : String} {blocks : List LeafBlock}
    {table : List TableLine} (hblocks : splitlines fibTrie = blocks.flatMap LeafBlock.lines)
    (htable : List.Forall₂ TableLine.Reads ((splitlines route).drop 1) table) {x : Ipv4}
    (hx : HostAddress blocks (upRoutes table) x) :
    Listed fibTrie route x ↔ (∃ b ∈ blocks, b.address = x ∧ b.StartsLocal) ∧ ¬ EndsLikeNet x := by
  have hroutes : keptRoutes route = sortRoutes ((upRoutes table).map RouteEntry.parsed) :=
    congrArg sortRoutes (parseRoutes_of_reads htable)
  rw [listed_iff, hblocks, mem_localIps_blocks, ← excluded_eq_false_iff hx.not_loopback]
  refine and_congr_right fun _ => ⟨?_, fun hkept => ?_⟩
  · rintro ⟨iface, hiface⟩
    exact not_excluded_of_ifaceOf hiface
  · obtain ⟨r, hlongest, -⟩ := hx.routed
    obtain ⟨hr, hmatches⟩ := hlongest.matches
    refine Option.ne_none_iff_exists'.mp fun hnone => ?_
    rw [hroutes] at hnone
    exact not_matches_of_ifaceOf hkept hnone r hr hmatches

/-! ## Two addresses of a large network -/

namespace LeafSample

/-- A leaf that holds two prefixes. -/
def shared : LeafBlock :=
  { address := 0x0A000105#32, leaf := "  |-- 10.0.1.5".toList, first := "     /24 link UNICAST".toList
    more := ["     /32 host LOCAL".toList], leaf_address := by decide
    prefixes_no_leaf := by decide }

/-- An address in the middle of a network of 16 bits. -/
def middle : LeafBlock :=
  { address := 0x0A000100#32, leaf := "  |-- 10.0.1.0".toList, first := "     /32 host LOCAL".toList
    more := [], leaf_address := by decide, prefixes_no_leaf := by decide }

def plain : LeafBlock :=
  { address := 0x0A000207#32, leaf := "  |-- 10.0.2.7".toList, first := "     /32 host LOCAL".toList
    more := [], leaf_address := by decide, prefixes_no_leaf := by decide }

def blocks : List LeafBlock := [shared, middle, plain]

def fibTrie : String :=
  "  |-- 10.0.1.5\n     /24 link UNICAST\n     /32 host LOCAL\n" ++
  "  |-- 10.0.1.0\n     /32 host LOCAL\n" ++
  "  |-- 10.0.2.7\n     /32 host LOCAL\n"

def route : String :=
  "Iface Destination Gateway Flags RefCnt Use Metric Mask MTU Window IRTT\n" ++
  "eth0 0000000A 00000000 0001 0 0 0 0000FFFF 0 0 0\n"

def net : RouteEntry :=
  { iface := "eth0", dest := 0x0A000000#32, len := 16, flags := 1, len_le := by decide }

theorem lines_fibTrie : splitlines fibTrie = blocks.flatMap LeafBlock.lines := by decide +kernel

theorem reads : List.Forall₂ TableLine.Reads ((splitlines route).drop 1) [.route net] := by
  have hlines : (splitlines route).drop 1 =
      ["eth0 0000000A 00000000 0001 0 0 0 0000FFFF 0 0 0".toList] := by decide +kernel
  rw [hlines]
  refine .cons ?_ .nil
  exact ⟨"eth0".toList, "0000000A".toList, "00000000".toList, "0001".toList, "0".toList,
    "0".toList, "0".toList, "0000FFFF".toList, ["0".toList, "0".toList, "0".toList], by decide,
    by decide, Ipv4.pyIntBase16_hexWord (by decide), by decide,
    Ipv4.pyIntBase16_hexWord (by decide)⟩

theorem hostAddress {b : LeafBlock} (h : b ∈ blocks) :
    HostAddress blocks (upRoutes [.route net]) b.address := by
  have hroutes : upRoutes [.route net] = [net] := rfl
  have hall : ∀ b ∈ blocks, (∃ line ∈ b.prefixLines, isLocal line = true) ∧
      "127.".toList.isPrefixOf b.address.text = false ∧ net.Matches b.address ∧
      b.address ≠ net.network ∧ b.address ≠ net.broadcast := by decide +kernel
  obtain ⟨hlocal, hloopback, hmatches, hnetwork, hbroadcast⟩ := hall b h
  refine ⟨⟨b, h, rfl, hlocal⟩, hloopback, net, ⟨?_, fun r hr _ => ?_⟩, hnetwork, hbroadcast⟩
  · rw [hroutes, List.find?_cons, decide_eq_true hmatches, beq_self_eq_true]
    rfl
  · rw [hroutes] at hr
    rw [List.mem_singleton.mp hr]

end LeafSample

theorem listed_iff_of_hostAddress_sample :
    Listed LeafSample.fibTrie LeafSample.route LeafSample.plain.address ↔
      (∃ b ∈ LeafSample.blocks, b.address = LeafSample.plain.address ∧ b.StartsLocal) ∧
        ¬ EndsLikeNet LeafSample.plain.address :=
  listed_iff_of_hostAddress LeafSample.lines_fibTrie LeafSample.reads
    (LeafSample.hostAddress (by simp [LeafSample.blocks]))

/-- A host address whose leaf holds another prefix first, and one that ends in `.0` in the middle
of its network, are lost. -/
theorem hostAddresses_lost :
    splitlines LeafSample.fibTrie = LeafSample.blocks.flatMap LeafBlock.lines ∧
    List.Forall₂ TableLine.Reads ((splitlines LeafSample.route).drop 1)
      [.route LeafSample.net] ∧
    ∀ x ∈ [LeafSample.shared.address, LeafSample.middle.address],
      HostAddress LeafSample.blocks (upRoutes [.route LeafSample.net]) x ∧
        ¬ Listed LeafSample.fibTrie LeafSample.route x := by
  refine ⟨LeafSample.lines_fibTrie, LeafSample.reads, fun x hx => ?_⟩
  rcases List.mem_cons.mp hx with rfl | hx
  · refine ⟨LeafSample.hostAddress (by simp [LeafSample.blocks]), fun hlisted => ?_⟩
    have hmissed : LeafSample.shared.address.text ∉ localIps none (splitlines LeafSample.fibTrie) := by
      decide +kernel
    exact hmissed (listed_iff.mp hlisted).1
  · rw [List.mem_singleton.mp hx]
    refine ⟨LeafSample.hostAddress (by simp [LeafSample.blocks]), fun hlisted => ?_⟩
    obtain ⟨iface, hiface⟩ := (listed_iff.mp hlisted).2
    have hexcluded : excluded LeafSample.middle.address.text = true := by decide +kernel
    rw [not_excluded_of_ifaceOf hiface] at hexcluded
    cases hexcluded

end WolMonkey
