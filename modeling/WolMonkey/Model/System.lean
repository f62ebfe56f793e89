import WolMonkey.Model.Security

/-!
# System information

`app/api/system.py`: the interfaces and neighbours of the host, read from files below
`/proc/net`. A parser is a function of the texts of its files; what it raises is its error.
The addresses that `_parse_iface_ips` collects form a set, whose order Python leaves open;
here each stands where it occurs last.
-/

namespace WolMonkey

open Programs

namespace System

/-! ## Text -/

/-- A line boundary of `str.splitlines`. -/
def isLineBreak (c : Char) : Bool :=
  let n := c.toNat
  (0xa ≤ n && n ≤ 0xd) || (0x1c ≤ n && n ≤ 0x1e) || n == 0x85 || n == 0x2028 || n == 0x2029

/-- `str.splitlines()`; `line` is the current line, reversed. -/
def splitlinesFrom : List Char → List Char → List (List Char)
  | line, [] => if line.isEmpty then [] else [line.reverse]
  | line, '\r' :: '\n' :: cs => line.reverse :: splitlinesFrom [] cs
  | line, c :: cs =>
    if isLineBreak c then line.reverse :: splitlinesFrom [] cs else splitlinesFrom (c :: line) cs

def splitlines (text : String) : List (List Char) := splitlinesFrom [] text.toList

/-- `str.split()`: the words between whitespace; `word` is the current word, reversed. -/
def wordsFrom : List Char → List Char → List (List Char)
  | word, [] => if word.isEmpty then [] else [word.reverse]
  | word, c :: cs =>
    if isSpace c then
      if word.isEmpty then wordsFrom [] cs else word.reverse :: wordsFrom [] cs
    else wordsFrom (c :: word) cs

def words (line : List Char) : List (List Char) := wordsFrom [] line

/-- `name` in `line.split(":")[0].strip()`. -/
def nameOf (line : List Char) : String :=
  String.ofList (strip isSpace (line.takeWhile (· != ':')))

/-! ## Numbers -/

/-- The value of one digit of a number in base 16. -/
def hexValue? (c : Char) : Option Nat :=
  match Uuid.hexDigit? c with
  | some d => some d.val
  | none => decimalDigit? c

/-- Hexadecimal digits with single underscores between them. -/
def hexDigits : List Char → Option (List Nat)
  | [] => none
  | [c] => (hexValue? c).map fun d => [d]
  | c :: '_' :: cs => do return (← hexValue? c) :: (← hexDigits cs)
  | c :: cs => do return (← hexValue? c) :: (← hexDigits cs)

/-- `int(s, 16)`. -/
def pyIntBase16 (cs : List Char) : Option Int :=
  let stripped := strip isSpace cs
  (hexDigits (dropHexPrefix (dropSign stripped))).map fun digits =>
    let n : Int := digits.foldl (fun n d => 16 * n + d) (0 : Nat)
    if stripped.head? == some '-' then -n else n

/-- The bytes of a 32-bit number in the other order. -/
def swapBytes (n : Nat) : Nat :=
  (n % 256) * 16777216 + (n / 256 % 256) * 65536 + (n / 65536 % 256) * 256 + n / 16777216 % 256

/-- `_route_hex_to_be_int`: numbers that do not fit into 32 bits raise. -/
def routeHexToBeInt (cs : List Char) : Option Nat :=
  match pyIntBase16 cs with
  | some n => if 0 ≤ n && n < 4294967296 then some (swapBytes n.toNat) else none
  | none => none

/-- A part of an address that `inet_aton` reads: octal when it starts with a zero. -/
def atonPart (cs : List Char) : Option Nat :=
  if cs.isEmpty || !cs.all (fun c => 48 ≤ c.toNat && c.toNat ≤ 57) then none
  else
    let base := if cs.head? == some '0' then 8 else 10
    if cs.all (fun c => c.toNat - 48 < base) then
      let n := cs.foldl (fun n c => base * n + (c.toNat - 48)) 0
      if n ≤ 255 then some n else none
    else none

/-- `inet_aton` of four parts, as a big-endian number. -/
def inetAton (ip : List Char) : Option Nat :=
  match (ip.splitOn '.').mapM atonPart with
  | some [a, b, c, d] => some (((a * 256 + b) * 256 + c) * 256 + d)
  | _ => none

/-! ## Parsers -/

/-- Interface names of `/proc/net/dev`. -/
def parseDevNames (dev : String) : List String :=
  (((splitlines dev).drop 2).map nameOf).filter (· != "")

/-- Wireless interface names of `/proc/net/wireless`. -/
def parseWirelessNames (wireless : String) : List String := ((splitlines wireless).drop 2).map nameOf

/-- One or more decimal digits, and the rest. -/
def takeDigits (cs : List Char) : Option (List Char × List Char) :=
  let ds := cs.takeWhile fun c => (decimalDigit? c).isSome
  if ds.isEmpty then none else some (ds, cs.drop ds.length)

/-- `\d+` followed by `n` times `\.\d+`. -/
def takeQuad : Nat → List Char → Option (List Char)
  | 0, cs => (takeDigits cs).map (·.1)
  | n + 1, cs =>
    match takeDigits cs with
    | some (ds, '.' :: rest) => (takeQuad n rest).map fun q => ds ++ '.' :: q
    | _ => none

/-- The group of `\s+\|--\s+(\d+\.\d+\.\d+\.\d+)` at the start of a line. -/
def leafAddress (line : List Char) : Option (List Char) :=
  if !(line.head?.any isSpace) then none
  else match line.dropWhile isSpace with
    | '|' :: '-' :: '-' :: rest =>
      if rest.head?.any isSpace then takeQuad 3 (rest.dropWhile isSpace) else none
    | _ => none

/-- `needle in line`. -/
def contains (needle : List Char) : List Char → Bool
  | [] => needle.isEmpty
  | c :: cs => needle.isPrefixOf (c :: cs) || contains needle cs

/-- The local addresses of `fib_trie`; `prev` is the address of the line before. -/
def localIps : Option (List Char) → List (List Char) → List (List Char)
  | _, [] => []
  | prev, line :: lines =>
    match leafAddress line with
    | some ip => localIps (some ip) lines
    | none =>
      match prev with
      | some ip =>
        if contains "/32 host LOCAL".toList line then ip :: localIps none lines
        else localIps none lines
      | none => localIps none lines

/-- A route: its interface, network and mask. -/
def parseRoute (line : List Char) : Option (String × Nat × Nat) :=
  match words line with
  | iface :: dest :: _gw :: flags :: _ :: _ :: _ :: mask :: _ =>
    match pyIntBase16 flags with
    | none => none
    | some flags =>
      if flags % 2 = 0 then none
      else do return (String.ofList iface, ← routeHexToBeInt dest, ← routeHexToBeInt mask)
  | _ => none

/-- `bin(n).count("1")` of a 32-bit number. -/
def bitCount (n : Nat) : Nat := (List.range 32).countP fun i => n.testBit i

/-- Routes ordered by mask, the most specific first. -/
def sortRoutes (routes : List (String × Nat × Nat)) : List (String × Nat × Nat) :=
  routes.mergeSort fun a b => bitCount b.2.2 ≤ bitCount a.2.2

/-- `result.setdefault(iface, []).append(ip)`. -/
def appendIp (result : List (String × List String)) (iface ip : String) :
    List (String × List String) :=
  if result.any (·.1 == iface) then
    result.map fun g => if g.1 == iface then (g.1, g.2 ++ [ip]) else g
  else result ++ [(iface, [ip])]

/-- The interface that an address belongs to. -/
def ifaceOf (routes : List (String × Nat × Nat)) (ip : List Char) : Option String :=
  if "127.".toList.isPrefixOf ip || ".0".toList.isSuffixOf ip || ".255".toList.isSuffixOf ip then
    none
  else match inetAton ip with
    | none => none
    | some n => (routes.find? fun r => n &&& r.2.2 == r.2.1 &&& r.2.2).map (·.1)

/-- `_parse_iface_ips`. -/
def parseIfaceIps (fibTrie route : String) : List (String × List String) :=
  let routes := sortRoutes (((splitlines route).drop 1).filterMap parseRoute)
  (localIps none (splitlines fibTrie)).dedup.foldl (fun result ip =>
    match ifaceOf routes ip with
    | some iface => appendIp result iface (String.ofList ip)
    | none => result) []

/-- `_classify`. -/
def classify (name : String) (wirelessNames : List String) : String :=
  let starts := fun (p : String) => p.toList.isPrefixOf name.toList
  if name == "lo" || starts "lo:" then "loopback"
  else if starts "veth" then "veth"
  else if starts "docker" || starts "br-" then "docker-bridge"
  else if starts "hassio" || starts "virbr" then "bridge"
  else if wirelessNames.contains name then "wifi"
  else "ethernet"

/-- The flags of an interface: up, running, loopback. -/
structure Flags where
  up : Bool := false
  running : Bool := false
  loopback : Bool := false
deriving DecidableEq

section Flags
variable (P : Platform)

/-- `int(parts[i])`. -/
def counter (parts : List (List Char)) (i : Nat) : Except PyExc Int :=
  match parts[i]? with
  | none => .error (.value "list index out of range")
  | some cs =>
    match pyInt P (String.ofList cs) with
    | .ok n => .ok n
    | .error message => .error (.value message)

/-- The flags that one line of `/proc/net/dev` gives. -/
def lineFlags (routed : List String) (line : List Char) : Except PyExc (Option (String × Flags)) :=
  if !line.contains ':' then .ok none
  else
    let name := nameOf line
    let parts := words ((line.dropWhile (· != ':')).drop 1)
    if parts.length < 9 then .ok none
    else do
      let rxPackets ← counter P parts 1
      let txPackets ← counter P parts 9
      return some (name,
        { up := routed.contains name, running := rxPackets > 0 || txPackets > 0
          loopback := name == "lo" })

/-- `_parse_flags`: later lines of a name replace earlier ones. -/
def parseFlags (dev route : String) : Except PyExc (List (String × Flags)) := do
  let routed := "lo" :: ((splitlines route).drop 1).filterMap fun line =>
    (words line).head?.map String.ofList
  let lines ← ((splitlines dev).drop 2).mapM (lineFlags P routed)
  return (lines.filterMap id).reverse

/-- The entries of `_list_interfaces`, from what its parsers return. -/
def interfaces (wirelessNames : List String) (flagsMap : List (String × Flags))
    (ipMap : List (String × List String)) (names : List String) : List NetworkInterface :=
  names.map fun name =>
    let flags := (flagsMap.lookup name).getD {}
    let type := classify name wirelessNames
    { name, type
      isLoopback := flags.loopback
      isVirtual := ["loopback", "veth", "docker-bridge", "bridge"].contains type
      isUp := flags.up
      isRunning := flags.running
      ipAddresses := (ipMap.lookup name).getD [] }

/-- `_list_interfaces`, from the texts of its files. -/
def listInterfaces (dev wireless route fibTrie : String) :
    Except PyExc (List NetworkInterface) := do
  let flagsMap ← parseFlags P dev route
  return interfaces (parseWirelessNames wireless) flagsMap (parseIfaceIps fibTrie route)
    (parseDevNames dev)

/-! ## Neighbours -/

/-- `str.lower()`. -/
def pyLower (s : String) : String :=
  if s.toList.all (fun c => c.toNat < 128) then String.ofList (s.toList.map Char.toLower)
  else P.lower s

/-- The host that one line of the ARP table describes. -/
def arpHost (wirelessNames : List String) (line : List Char) : Option DiscoveredHost :=
  match words line with
  | ip :: _hwtype :: flags :: mac :: _mask :: iface :: _ =>
    if String.ofList mac == "00:00:00:00:00:00" then none
    else some
      { ipAddress := String.ofList ip, macAddress := pyLower P (String.ofList mac)
        interface := String.ofList iface, isReachable := String.ofList flags == "0x2"
        isWireless := wirelessNames.contains (String.ofList iface) }
  | _ => none

/-- The key by which hosts are sorted. -/
def addressKey (ip : String) : Except PyExc (List Int) :=
  (ip.toList.splitOn '.').mapM fun cs =>
    match pyInt P (String.ofList cs) with
    | .ok n => .ok n
    | .error message => .error (.value message)

/-- The order of tuples. -/
def keyLe : List Int → List Int → Bool
  | [], _ => true
  | _ :: _, [] => false
  | a :: as, b :: bs => a < b || (a == b && keyLe as bs)

/-- `_discover_hosts`. -/
def discoverHosts (arp wireless : String) : Except PyExc (List DiscoveredHost) := do
  let hosts := ((splitlines arp).drop 1).filterMap (arpHost P (parseWirelessNames wireless))
  let keyed ← hosts.mapM fun h => do return (← addressKey P h.ipAddress, h)
  return (keyed.mergeSort fun a b => keyLe a.1 b.1).map (·.2)

end Flags
end System

namespace Api
variable (P : Platform) (req : Request)

/-- Go on with a result, or raise its exception. -/
def raiseOr {α : Type} : Except PyExc α → Code α
  | .ok a => pure a
  | .error e => raise e

/-- Every parser reads its files itself. -/
def listInterfaces : Code Response :=
  getDbSession do
    let _ ← getCurrentUser req
    let wireless ← await (.readProc "wireless")
    let route ← await (.readProc "route")
    let dev ← await (.readProc "dev")
    let flagsMap ← raiseOr (System.parseFlags P dev route)
    let fibTrie ← await (.readProc "fib_trie")
    let route ← await (.readProc "route")
    let ipMap := System.parseIfaceIps fibTrie route
    let dev ← await (.readProc "dev")
    return { body := .interfaces (System.interfaces (System.parseWirelessNames wireless) flagsMap
                       ipMap (System.parseDevNames dev)) }

def discoverHosts : Code Response :=
  getDbSession do
    let _ ← getCurrentUser req
    let wireless ← await (.readProc "wireless")
    let arp ← await (.readProc "arp")
    let hosts ← raiseOr (System.discoverHosts P arp wireless)
    return { body := .hosts hosts }

end Api

end WolMonkey
