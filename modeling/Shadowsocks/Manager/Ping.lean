import Shadowsocks.Lib.Ctype
import Shadowsocks.Lib.Memory
import Shadowsocks.Acl
import Mathlib.Data.List.FinRange

/-!
# The report of the manager

In answer to `ping` the manager prints its table into a buffer of 65535 bytes, and sends
what has been printed before it is full.

The buffer is tested before each entry, against half of its size, and when it is over it, it is
sent and emptied, without the entry and without the words that a report begins with. So a report
is whole exactly if all entries but the last one fit (`ping_reports_iff`).
-/

namespace Shadowsocks.Manager
set_option autoImplicit false
open Lib

/-- `BUF_SIZE`. -/
def bufSize : Nat := 65535

/-- An entry of `server_table` as the report shows it: `port` is a C string that ends inside a
`struct server`. -/
structure Entry where
  port : Bytes
  traffic : UInt64
  text : 0 ∉ port
  short : port.length < 144

/-- What `sprintf` prints for an entry, without the comma. -/
def member (port : Bytes) (traffic : UInt64) : Bytes :=
  ascii "\"" ++ port ++ ascii "\":" ++ decimalBytes traffic.toNat

/-- `sprintf` behind the `buf.length` bytes that stand in the buffer. -/
def sprintf (buf text : Bytes) : Except Fault Bytes :=
  if buf.length + text.length + 1 ≤ bufSize then .ok (buf ++ text) else .error .outOfBounds

/-- The last datagram: the last comma gives way to a brace, and the zero behind it is sent, too. -/
def lastReport (buf : Bytes) : Bytes :=
  if 7 < buf.length then buf.dropLast ++ ascii "\x7d" ++ [0] else buf ++ ascii "\x7d"

/-- The loop over the table, with the text in the buffer: the datagrams that are sent. -/
def pingLoop : (buf : Bytes) → List Entry → Except Fault (List Bytes)
  | buf, [] => pure [lastReport buf]
  | buf, server :: servers =>
    if bufSize / 2 < buf.length then do
      let rest ← pingLoop [] servers
      pure ((buf.dropLast ++ ascii "\x7d" ++ [0]) :: rest)
    else do
      let buf ← sprintf buf (member server.port server.traffic ++ ascii ",")
      pingLoop buf servers

/-- `manager_recv_cb` for `ping`. -/
def ping (servers : List Entry) : Except Fault (List Bytes) := pingLoop (ascii "stat: \x7b") servers

/-! ## The specification -/

/-- A report on some of the servers. -/
def report (members : List (Bytes × UInt64)) : Bytes :=
  ascii "stat: \x7b" ++ [44].intercalate (members.map fun m => member m.1 m.2) ++ ascii "\x7d"

/-- The texts of the datagrams are reports, and together they report every server once. -/
def Reports (sent : List Bytes) (servers : List Entry) : Prop :=
  ∃ groups : List (List (Bytes × UInt64)), sent.map cString = groups.map report ∧
    groups.flatten.Perm (servers.map fun server => (server.port, server.traffic))

/-- The bytes an entry takes in the buffer. -/
def Entry.size (server : Entry) : Nat := (member server.port server.traffic).length + 1

/-! ## Without a flush -/

/-- An entry is no longer than what is left of the buffer after a flush. -/
theorem Entry.size_le (server : Entry) : server.size ≤ 168 := by
  have digits := length_decimalBytes_le (k := 20) (by decide) (Nat.lt_of_lt_of_le server.traffic.toNat_lt (by decide))
  have port := server.short
  have quote : (ascii "\"").length = 1 := by decide
  have colon : (ascii "\":").length = 2 := by decide
  rw [size, member, List.length_append, List.length_append, List.length_append, quote, colon]
  omega

/-- In the lower half of the buffer an entry is written without an overflow. -/
theorem sprintf_fits (server : Entry) {buf : Bytes} (low : buf.length ≤ bufSize / 2) :
    sprintf buf (member server.port server.traffic ++ ascii ",") =
      .ok (buf ++ (member server.port server.traffic ++ [44])) := by
  have small := server.size_le
  have comma : ascii "," = [44] := by decide
  have half : bufSize / 2 = 32767 := by decide
  have size : (member server.port server.traffic ++ [44]).length = server.size := List.length_append
  rw [comma, sprintf, if_pos]
  rw [size]
  unfold bufSize
  omega

/-- The members as they stand in the buffer, a comma behind each. -/
def listing (servers : List Entry) : Bytes := servers.flatMap fun server => member server.port server.traffic ++ [44]

/-- While all entries but the last one fit in the lower half, one datagram has them all. -/
theorem pingLoop_whole {servers : List Entry} {buf : Bytes}
    (fits : servers ≠ [] → buf.length + (servers.dropLast.map Entry.size).sum ≤ bufSize / 2) :
    pingLoop buf servers = .ok [lastReport (buf ++ listing servers)] := by
  induction servers generalizing buf with
  | nil =>
    rw [listing, List.flatMap_nil, List.append_nil]
    rfl
  | cons server servers ih =>
    have room := fits (List.cons_ne_nil _ _)
    have low : ¬ bufSize / 2 < buf.length := by omega
    rw [pingLoop, if_neg low, sprintf_fits server (Nat.not_lt.mp low), ok_bind, ih, listing, listing, List.flatMap_cons,
      List.append_assoc]
    intro more
    have size : (member server.port server.traffic ++ [44]).length = server.size := List.length_append
    rw [List.dropLast_cons_of_ne_nil more, List.map_cons, List.sum_cons] at room
    rw [List.length_append, size]
    omega

/-- Without the last comma the entries are separated by commas. -/
theorem dropLast_listing {servers : List Entry} (some_ : servers ≠ []) :
    (listing servers).dropLast = [44].intercalate (servers.map fun server => member server.port server.traffic) := by
  induction servers with
  | nil => exact absurd rfl some_
  | cons server servers ih =>
    rw [listing, List.flatMap_cons]
    cases servers with
    | nil =>
      rw [List.flatMap_nil, List.append_nil, List.dropLast_concat, List.map_singleton, List.intercalate_singleton]
    | cons next servers =>
      have more : (next :: servers).flatMap (fun server => member server.port server.traffic ++ [44]) ≠ [] := by
        rw [List.flatMap_cons]
        simp
      have others : (next :: servers).map (fun server => member server.port server.traffic) ≠ [] := by simp
      rw [List.dropLast_append_of_ne_nil more, List.map_cons, List.intercalate_cons_of_ne_nil others,
        ← ih (List.cons_ne_nil _ _)]
      rfl

/-- An entry is text, so it is sent up to its end. -/
theorem zero_notMem_member {port : Bytes} (text : 0 ∉ port) (traffic : UInt64) : 0 ∉ member port traffic := by
  have quote : 0 ∉ ascii "\"" := by decide
  have colon : 0 ∉ ascii "\":" := by decide
  simp only [member, List.mem_append, not_or]
  exact ⟨⟨⟨quote, text⟩, colon⟩, zero_notMem_decimalBytes _⟩

theorem zero_notMem_listing (servers : List Entry) : 0 ∉ listing servers := by
  simp only [listing, List.mem_flatMap, List.mem_append, not_exists, not_and, not_or]
  intro server _
  exact ⟨zero_notMem_member server.text _, by decide⟩

/-- A text ends where its zero is. -/
theorem cString_text {bs : Bytes} (text : 0 ∉ bs) (rest : Bytes) : cString (bs ++ 0 :: rest) = bs := by
  have all : ∀ b ∈ bs, (b != 0) = true := fun b here => bne_iff_ne.mpr fun zero => text (zero ▸ here)
  rw [cString, List.takeWhile_append_of_pos all]
  simp

/-- What is sent at the end, with its comma overwritten, is a report. -/
theorem cString_lastReport (servers : List Entry) :
    cString (lastReport (ascii "stat: \x7b" ++ listing servers)) =
      report (servers.map fun server => (server.port, server.traffic)) := by
  cases servers with
  | nil => decide
  | cons server servers =>
    have long : 7 < (ascii "stat: \x7b" ++ listing (server :: servers)).length := by
      have seven : (ascii "stat: \x7b").length = 7 := by decide
      rw [List.length_append, seven, listing, List.flatMap_cons, List.length_append, List.length_append, List.length_singleton]
      omega
    have some_ : listing (server :: servers) ≠ [] := by
      rw [listing, List.flatMap_cons]
      simp
    have clean : 0 ∉ (ascii "stat: \x7b" ++ listing (server :: servers)).dropLast ++ ascii "\x7d" := by
      have head : 0 ∉ ascii "stat: \x7b" := by decide
      have brace : 0 ∉ ascii "\x7d" := by decide
      rw [List.mem_append, not_or]
      refine ⟨fun here => ?_, brace⟩
      rcases List.mem_append.mp ((List.dropLast_sublist _).subset here) with start | later
      · exact head start
      · exact zero_notMem_listing _ later
    rw [lastReport, if_pos long, cString_text clean, List.dropLast_append_of_ne_nil some_, dropLast_listing (List.cons_ne_nil _ _),
      report, List.map_map]
    rfl

/-! ## After a flush -/

/-- No ping overruns the buffer. -/
theorem pingLoop_total (servers : List Entry) (buf : Bytes) : ∃ sent, pingLoop buf servers = .ok sent := by
  induction servers generalizing buf with
  | nil => exact ⟨_, rfl⟩
  | cons server servers ih =>
    rw [pingLoop]
    split
    next =>
      obtain ⟨rest, ran⟩ := ih []
      exact ⟨_, by rw [ran]; rfl⟩
    next low =>
      rw [sprintf_fits server (Nat.not_lt.mp low), ok_bind]
      exact ih _

/-- Once the entries do not fit in the lower half, some datagram is sent without the others. -/
theorem pingLoop_flush {servers : List Entry} {buf : Bytes} (some_ : servers ≠ [])
    (over_ : bufSize / 2 < buf.length + (servers.dropLast.map Entry.size).sum) :
    ∃ datagram later rest, pingLoop [] later = .ok rest ∧ pingLoop buf servers = .ok (datagram :: rest) := by
  induction servers generalizing buf with
  | nil => exact absurd rfl some_
  | cons server servers ih =>
    rw [pingLoop]
    split
    next =>
      obtain ⟨rest, ran⟩ := pingLoop_total servers []
      exact ⟨_, servers, rest, ran, by rw [ran]; rfl⟩
    next low =>
      have more : servers ≠ [] := by
        rintro rfl
        exact low over_
      have size : (member server.port server.traffic ++ [44]).length = server.size := List.length_append
      rw [sprintf_fits server (Nat.not_lt.mp low), ok_bind]
      apply ih more
      rw [List.dropLast_cons_of_ne_nil more, List.map_cons, List.sum_cons] at over_
      rw [List.length_append, size]
      omega

/-- A datagram that is not headed by `stat` is no report: `s` is 115. -/
theorem head?_append_ne {buf rest : Bytes} (headless : buf.head? ≠ some 115) (headless' : rest.head? ≠ some 115) :
    (buf ++ rest).head? ≠ some 115 := by
  cases buf with
  | nil => exact headless'
  | cons b buf => exact headless

theorem head?_dropLast_ne {buf : Bytes} (headless : buf.head? ≠ some 115) : buf.dropLast.head? ≠ some 115 := by
  rcases buf with _ | ⟨b, _ | ⟨c, buf⟩⟩
  · exact headless
  · exact nofun
  · exact headless

/-- Once the buffer has been cleared, what is sent does not begin as a report does. -/
theorem pingLoop_headless {servers : List Entry} {buf : Bytes} {sent : List Bytes} (headless : buf.head? ≠ some 115)
    (ran : pingLoop buf servers = .ok sent) : ∃ datagram ∈ sent, datagram.head? ≠ some 115 := by
  have brace : (ascii "\x7d").head? ≠ some 115 := by decide
  have flushed : (buf.dropLast ++ ascii "\x7d" ++ [0]).head? ≠ some 115 :=
    head?_append_ne (head?_append_ne (head?_dropLast_ne headless) brace) (by decide)
  induction servers generalizing buf with
  | nil =>
    cases ran
    refine ⟨_, List.mem_singleton_self _, ?_⟩
    rw [lastReport]
    split
    · exact flushed
    · exact head?_append_ne headless brace
  | cons server servers ih =>
    rw [pingLoop] at ran
    split at ran
    next =>
      obtain ⟨rest, after⟩ := pingLoop_total servers []
      rw [after] at ran
      cases ran
      exact ⟨_, List.mem_cons_self, flushed⟩
    next low =>
      rw [sprintf_fits server (Nat.not_lt.mp low), ok_bind] at ran
      have quote : (member server.port server.traffic ++ [44]).head? ≠ some 115 := by
        have first : ascii "\"" = [34] := by decide
        rw [member, first]
        exact nofun
      have headless' := head?_append_ne headless quote
      exact ih headless' ran (head?_append_ne (head?_append_ne (head?_dropLast_ne headless') brace) (by decide))

theorem head?_cString_ne {bs : Bytes} (headless : bs.head? ≠ some 115) : (cString bs).head? ≠ some 115 := by
  cases bs with
  | nil => exact headless
  | cons b bs =>
    rw [cString, List.takeWhile_cons]
    split
    · exact headless
    · exact nofun

/-- A report begins with the `s` of `stat`. -/
theorem head?_report (members : List (Bytes × UInt64)) : (report members).head? = some 115 := by
  have start : ascii "stat: \x7b" = 115 :: ascii "tat: \x7b" := by decide
  rw [report, start]
  rfl

/-- A report that does not fit the buffer loses its shape. -/
theorem not_reports_of_over {servers : List Entry} (some_ : servers ≠ [])
    (over_ : bufSize / 2 < 7 + (servers.dropLast.map Entry.size).sum) {sent : List Bytes} (ran : ping servers = .ok sent) :
    ¬ Reports sent servers := by
  rintro ⟨groups, shaped, -⟩
  obtain ⟨datagram, later, rest, after, flushed⟩ : ∃ datagram later rest, pingLoop [] later = .ok rest ∧
      pingLoop (ascii "stat: \x7b") servers = .ok (datagram :: rest) := pingLoop_flush some_ over_
  have same := ran.symm.trans flushed
  cases same
  obtain ⟨d, here, headless⟩ := pingLoop_headless (by decide) after
  have shown : cString d ∈ groups.map report := shaped ▸ List.mem_map_of_mem (List.mem_cons_of_mem _ here)
  obtain ⟨members, -, same⟩ := List.mem_map.mp shown
  exact head?_cString_ne headless (same ▸ head?_report members)

/-- The table is reported faithfully if and only if its entries, without the last one, fit the
half of the buffer behind which the loop flushes it. -/
theorem ping_reports_iff (servers : List Entry) :
    ∃ sent, ping servers = .ok sent ∧
      (Reports sent servers ↔ 7 + (servers.dropLast.map Entry.size).sum ≤ 32767) := by
  obtain ⟨sent, ran⟩ := pingLoop_total servers (ascii "stat: \x7b")
  refine ⟨sent, ran, ?_, ?_⟩
  · intro reports
    by_contra over_
    have some_ : servers ≠ [] := by
      rintro rfl
      exact over_ (by decide)
    exact not_reports_of_over some_ (Nat.not_le.mp over_) ran reports
  · intro fits
    have whole := ran.symm.trans (pingLoop_whole fun _ => fits)
    cases whole
    refine ⟨[servers.map fun server => (server.port, server.traffic)], ?_, ?_⟩
    · rw [List.map_singleton, List.map_singleton, cString_lastReport]
    · rw [List.flatten_singleton]

/-- The server on a port, without traffic so far. -/
def idle (port : Nat) (fits : port < 10 ^ 5) : Entry where
  port := decimalBytes port
  traffic := 0
  text := zero_notMem_decimalBytes port
  short := Nat.lt_of_le_of_lt (length_decimalBytes_le (by decide) fits) (by decide)

/-- 7000 servers, on the ports from 10000 on. -/
def manyServers : List Entry := List.ofFn fun i : Fin 7000 => idle (10000 + i.val) (by omega)

/-- An entry has at least two quotes, a colon, a digit and a comma. -/
theorem Entry.five_le_size (server : Entry) : 5 ≤ server.size := by
  have digits := List.length_pos_iff.mpr (decimalBytes_ne_nil server.traffic.toNat)
  have quote : (ascii "\"").length = 1 := by decide
  have colon : (ascii "\":").length = 2 := by decide
  rw [size, member, List.length_append, List.length_append, List.length_append, quote, colon]
  omega

theorem five_mul_le_sum (servers : List Entry) : 5 * servers.length ≤ (servers.map Entry.size).sum := by
  induction servers with
  | nil => exact Nat.le_refl 0
  | cons server servers ih =>
    have one := server.five_le_size
    rw [List.length_cons, List.map_cons, List.sum_cons]
    omega

/-- Seven thousand ports are more than half of the buffer. -/
theorem manyServers_lost :
    (manyServers.map Entry.port).Nodup ∧ ∃ sent, ping manyServers = .ok sent ∧ ¬ Reports sent manyServers := by
  have length : manyServers.length = 7000 := List.length_ofFn
  have some_ : manyServers ≠ [] := by
    intro none_
    rw [none_] at length
    cases length
  have over_ : bufSize / 2 < 7 + (manyServers.dropLast.map Entry.size).sum := by
    have least := five_mul_le_sum manyServers.dropLast
    rw [List.length_dropLast, length] at least
    have half : bufSize / 2 = 32767 := by decide
    omega
  obtain ⟨sent, ran⟩ := pingLoop_total manyServers (ascii "stat: \x7b")
  refine ⟨?_, sent, ran, not_reports_of_over some_ over_ ran⟩
  rw [manyServers, List.map_ofFn]
  apply List.nodup_ofFn.mpr
  intro i j same
  have ports : 10000 + i.val = 10000 + j.val := decimalBytes_injective same
  exact Fin.ext (by omega)

end Shadowsocks.Manager
