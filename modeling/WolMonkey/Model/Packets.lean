import WolMonkey.Model.Requests

/-!
# Magic packets

`_build_magic_packet` and the sending part of `UdpBroadcastStrategy` in
`app/infra/wake_strategy.py`, with the parts of Python's `str` and `bytes` they rest on.
The full upper-case mapping of characters beyond ASCII is a table of the Unicode standard;
`UpperTable` carries what is known of its entries about hexadecimal digits.
-/

namespace WolMonkey

abbrev Byte := Fin 256

/-! ## Text and bytes -/

/-- `Py_ISSPACE`: the characters that `bytes.fromhex` skips. -/
def isBlank (c : Char) : Bool := c == ' ' || (9 ≤ c.toNat && c.toNat ≤ 13)

/-- The upper-case texts of the characters beyond ASCII. One of them, the ligature of two
letters f, has an upper-case text of hexadecimal digits. -/
structure UpperTable where
  upper : Char → List Char
  ligature : upper 'ﬀ' = ['F', 'F']
  other : ∀ c, 128 ≤ c.toNat → c ≠ 'ﬀ' → ∃ d ∈ upper c, isHex d = false ∧ isBlank d = false

/-- `str.upper()`. -/
def pyUpper (T : UpperTable) (cs : List Char) : List Char :=
  cs.flatMap fun c => if c.toNat < 128 then [c.toUpper] else T.upper c

/-- The octet of two hexadecimal digits. -/
def octet (hi lo : Fin 16) : Byte := ⟨16 * hi.val + lo.val, by omega⟩

/-- The loop of `bytes.fromhex` from a position; an error is the position of the character
that is no digit. -/
def hexPairs (pos : Nat) : List Char → Except Nat (List Byte)
  | [] => .ok []
  | [c] =>
    if isBlank c then .ok []
    else if isHex c then .error (pos + 1)
    else .error pos
  | c :: d :: rest =>
    if isBlank c then hexPairs (pos + 1) (d :: rest)
    else match Uuid.hexDigit? c, Uuid.hexDigit? d with
      | none, _ => .error pos
      | some _, none => .error (pos + 1)
      | some hi, some lo => do return octet hi lo :: (← hexPairs (pos + 2) rest)

def nonHexadecimal (pos : Nat) : PyExc :=
  .value ("non-hexadecimal number found in fromhex() arg at position " ++ toString pos)

/-- `bytes.fromhex`. -/
def fromHex (cs : List Char) : Except PyExc (List Byte) :=
  match cs.findIdx? fun c => 128 ≤ c.toNat with
  | some pos => .error (nonHexadecimal pos)
  | none => (hexPairs 0 cs).mapError nonHexadecimal

/-! ## The packet -/

/-- `mac.replace(":", "").replace("-", "")`. -/
def withoutSeparators (mac : String) : List Char :=
  (mac.toList.filter (· != ':')).filter (· != '-')

/-- Six bytes `FF` and sixteen times the address. -/
def magicPacket (macBytes : List Byte) : List Byte :=
  List.replicate 6 255 ++ (List.replicate 16 macBytes).flatten

def buildMagicPacket (P : Platform) (T : UpperTable) (mac : String) :
    Except PyExc (List Byte) :=
  let macClean := pyUpper T (withoutSeparators mac)
  if macClean.length ≠ 12 then .error (.value ("Invalid MAC address: " ++ pyRepr P mac))
  else do
    let macBytes ← fromHex macClean
    return magicPacket macBytes

def magicPort : Nat := 9

def magicBroadcast : String := "255.255.255.255"

/-- What `UdpBroadcastStrategy.wake` sends, and where: the packet, the host and the port. -/
def udpDatagram (P : Platform) (T : UpperTable) (mac : String) (broadcast : Option String) :
    Except PyExc (List Byte × String × Nat) := do
  let target := match broadcast with
    | some address => if address == "" then magicBroadcast else address
    | none => magicBroadcast
  let packet ← buildMagicPacket P T mac
  return (packet, target, magicPort)

end WolMonkey
