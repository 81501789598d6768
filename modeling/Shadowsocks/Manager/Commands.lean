import Shadowsocks.Json
import Shadowsocks.Manager.Ping
import Mathlib.Logic.Function.Basic

/-!
# The commands of the manager

`manager_recv_cb` cuts the action out of a datagram, in place, and looks for the first brace
for the JSON text behind it. What it finds there goes to arrays of fixed size, of which the
port is the key of the table.
-/

namespace Shadowsocks.Manager
set_option autoImplicit false
open Lib

/-! ## Servers -/

/-- `strncpy` into an array of `n` bytes. -/
def strncpy (n : Nat) (src : Bytes) : Bytes :=
  (cString src).take n ++ List.replicate (n - (cString src).length) 0

theorem length_strncpy (n : Nat) (src : Bytes) : (strncpy n src).length = n := by
  rw [strncpy, List.length_append, List.length_take, List.length_replicate]
  omega

/-- `snprintf` of a text into an array, of which it leaves what is behind the final zero. -/
def snprintf (dst text : Bytes) : Bytes :=
  let shown := text.take (dst.length - 1)
  shown ++ 0 :: dst.drop (shown.length + 1)

theorem length_snprintf {dst : Bytes} (room : 0 < dst.length) (text : Bytes) : (snprintf dst text).length = dst.length := by
  simp only [snprintf, List.length_append, List.length_take, List.length_cons, List.length_drop]
  omega

theorem zero_notMem_cString (bs : Bytes) : 0 ∉ cString bs := by
  intro here
  have nonzero := List.mem_takeWhile_imp here
  exact Bool.false_ne_true nonzero

theorem length_cString_lt {bs : Bytes} (ends : 0 ∈ bs) : (cString bs).length < bs.length := by
  refine Nat.lt_of_le_of_ne (List.takeWhile_prefix _).length_le fun same => ?_
  have whole : cString bs = bs := (List.takeWhile_prefix _).eq_of_length same
  exact zero_notMem_cString bs (whole.symm ▸ ends)

/-- `struct server`. -/
structure Server where
  port : Bytes
  password : Bytes
  traffic : UInt64
  portSize : port.length = 8
  passwordSize : password.length = 128

namespace Server

/-- After `memset`. -/
def zero : Server where
  port := List.replicate 8 0
  password := List.replicate 128 0
  traffic := 0
  portSize := List.length_replicate
  passwordSize := List.length_replicate

/-- The structure in memory. -/
def bytes (s : Server) : Bytes :=
  s.port ++ s.password ++ (List.range 8).map fun i => UInt8.ofNat (s.traffic.toNat / 256 ^ i)

theorem length_bytes (s : Server) : s.bytes.length = 144 := by
  simp only [bytes, List.length_append, List.length_map, List.length_range, s.portSize, s.passwordSize]

/-- The key of an entry is the C string at `port`, and that may run into what is behind. -/
def key (s : Server) : Bytes := cString s.bytes

def setPort (s : Server) : JsonValue → Server
  | .string p => { s with port := strncpy 8 p, portSize := length_strncpy 8 p }
  | .integer n =>
    { s with
      port := snprintf s.port (decimalBytes n.toUInt64.toNat)
      portSize := (length_snprintf (s.portSize ▸ Nat.succ_pos 7) _).trans s.portSize }
  | _ => s

def setPassword (s : Server) : JsonValue → Server
  | .string p => { s with password := strncpy 128 p, passwordSize := length_strncpy 128 p }
  | _ => s

/-- The entry as `ping` prints it, provided that its key ends inside the structure. -/
def entry (s : Server) : Except Fault Entry :=
  if ends : 0 ∈ s.bytes then
    .ok {
      port := s.key
      traffic := s.traffic
      text := zero_notMem_cString s.bytes
      short := s.length_bytes ▸ length_cString_lt ends }
  else .error .outOfBounds

end Server

/-! ## Parsing -/

/-- `get_action`: the action, and the buffer in which the byte behind it is zero. -/
def getAction (buf : Bytes) (len : Nat) : Option (Bytes × Bytes) :=
  let pos := ((buf.take len).takeWhile isSpace).length
  if pos = len then none
  else
    let stop := pos + (((buf.take len).drop pos).takeWhile fun b => !isSpace b && b != 58).length
    let buf := buf.set stop 0
    some (cString (buf.drop pos), buf)

/-- `get_data`: the C string that begins one byte before the first brace. -/
def getData (buf : Bytes) (len : Nat) : Except Fault (Option Bytes) :=
  let pos := ((buf.take len).takeWhile (· != 123)).length
  if pos = len then .ok none
  else if pos = 0 then .error .outOfBounds
  else .ok (some (cString (buf.drop (pos - 1))))

/-- The loop of `get_server` over the members of the object. -/
def readServer : List (Bytes × JsonValue) → Server → Server
  | [], s => s
  | (name, value) :: values, s =>
    if cString name = ascii "server_port" then readServer values (s.setPort value)
    else if cString name = ascii "password" then readServer values (s.setPassword value)
    else s

/-- `get_server`. -/
def getServer (json : JsonParser) (buf : Bytes) (len : Nat) : Except Fault (Option Server) := do
  match ← getData buf len with
  | none => pure none
  | some data =>
    match json.parse data with
    | none => pure none
    | some (.object values) => pure (some (readServer values .zero))
    | some _ => pure (some .zero)

/-- The loop of `parse_traffic`: the array for the port, and the traffic. -/
def readTraffic : List (Bytes × JsonValue) → Bytes × UInt64 → Bytes × UInt64
  | [], found => found
  | (name, .integer n) :: values, _ => readTraffic values (strncpy 8 name, n.toUInt64)
  | _ :: values, found => readTraffic values found

/-- `parse_traffic`, where the caller's array for the port holds `junk`. -/
def parseTraffic (json : JsonParser) (junk : Bytes) (buf : Bytes) (len : Nat) : Except Fault (Option (Bytes × UInt64)) := do
  match ← getData buf len with
  | none => pure none
  | some data =>
    match json.parse data with
    | none => pure none
    | some (.object values) => pure (some (readTraffic values (junk, 0)))
    | some _ => pure (some (junk, 0))

/-! ## The table -/

/-- `cork_hash_table_put`. -/
def put (table : List Server) (server : Server) : List Server :=
  if table.any (·.key == server.key) then table.map fun s => if s.key = server.key then server else s
  else table ++ [server]

/-- `remove_server` and `update_stat` on the table. -/
def delete (table : List Server) (port : Bytes) : List Server := table.filter (·.key != port)

def updateStat (table : List Server) (port : Bytes) (traffic : UInt64) : List Server :=
  table.map fun s => if s.key = port then { s with traffic } else s

/-- What the process does to others: datagrams to the client, and `ss-server` processes that
it stops and starts. -/
inductive Output where
  | send (datagram : Bytes)
  | stopServer (port : Bytes)
  | startServer (server : Server)

structure State where
  table : List Server
  log : List Output

def State.reply (s : State) (datagram : Bytes) : State := { s with log := s.log ++ [.send datagram] }

/-- `manager_recv_cb` on a datagram; `junk` is what its local array `port` holds. -/
def managerRecv (json : JsonParser) (junk : Bytes) (s : State) (request : Bytes) : Except Fault State :=
  let r := min request.length bufSize
  if bufSize / 2 < r then .ok s
  else
    match getAction (request ++ List.replicate (bufSize - r) 0) r with
    | none => .ok s
    | some (action, buf) =>
      if action = ascii "add" then do
        match ← getServer json buf r with
        | none => pure (s.reply (ascii "err" ++ [0]))
        | some server =>
          if server.port.head? = some 0 ∨ server.password.head? = some 0 then pure (s.reply (ascii "err" ++ [0]))
          else
            pure ({ table := put (delete s.table server.key) server
                    log := s.log ++ [.stopServer server.key, .startServer server] : State }.reply (ascii "ok" ++ [0]))
      else if action = ascii "remove" then do
        match ← getServer json buf r with
        | none => pure (s.reply (ascii "err" ++ [0]))
        | some server =>
          if server.port.head? = some 0 then pure (s.reply (ascii "err" ++ [0]))
          else
            pure ({ table := delete s.table server.key
                    log := s.log ++ [.stopServer server.key] : State }.reply (ascii "ok" ++ [0]))
      else if action = ascii "stat" then do
        match ← parseTraffic json junk buf r with
        | none => pure s
        | some (port, traffic) =>
          if 0 ∈ port then pure { s with table := updateStat s.table (cString port) traffic }
          else .error .outOfBounds
      else if action = ascii "ping" then do
        let sent ← ping (← s.table.mapM Server.entry)
        pure (sent.foldl State.reply s)
      else .ok s

end Shadowsocks.Manager
