import Mathlib.Data.List.GetD
import Usbip.Lib.Loop
import Usbip.Lib.Scan
import Usbip.Client.DeviceList

/-!
# The list of hosts in the environment

`LIBUSBIP_HOSTS` has the hosts that a session begins with, `host` or `host/port`, with semicolons
between them. The loop in `libusbip_init` finds the next semicolon and the next slash, computes a
length from them in one of four ways, and adds the length to get to the next entry.

* `pass`: one pass of the loop over the text of the environment, in which the list comes after `=`.
  The length is a `size_t`, where -1 is the largest value;
* `parsesHosts_iff`: which lists are understood. An entry without a port is. A port is never read,
  since the text that `sscanf` gets begins with the slash. The length of an entry with a port and
  another entry behind it is one too small, and the next pass begins at the slash, where the length
  is -1 and there is no next entry.
-/

namespace Usbip.Client

open StateTransition Scan

/-! ### `libusbip_init` -/

/-- `libusbip_host_t` -/
structure Host where
  addr : List Byte
  port : ℤ

/-- The hosts of a `session_t`. -/
structure HostSession where
  hostList : List Host
  hostCount : ℕ

/-- `libusbip_add_hosts` -/
def libusbipAddHosts (session : HostSession) (hosts : List Host) : HostSession where
  hostList := hosts.foldl (fun l h => h :: l) session.hostList
  hostCount := session.hostCount + hosts.length

/-- The hosts that were added, one after the other. -/
def HostSession.calls (session : HostSession) : List (List Byte × ℤ) :=
  (session.hostList.map fun h => (cString h.addr, h.port)).reverse

/-- `sizeof(host.addr)` -/
def addrSize : ℕ := 64

/-- `sizeof(tmp)` -/
def tmpSize : ℕ := 20

/-- The character between two entries. -/
def semicolon : Byte := 0x3b

/-- The character between host and port. -/
def slash : Byte := 0x2f

/-- What a pass makes of the text at `hosts`: the length, the text that `port` points to if it is
not null, and the buffer with the number of bytes that were written to it. -/
structure Separated where
  len : ℤ
  port : Option (List Byte)
  tmp : List Byte
  written : ℕ

/-- The four cases. -/
def separate (tmp text : List Byte) : Separated :=
  match strchr semicolon text, strchr slash text with
  | some stop, some port =>
    if port < stop then
      let tmp := strncpy tmp (text.drop port) (stop - port - 1)
      ⟨port - 1, some tmp, tmp, stop - port - 1⟩
    else ⟨stop, none, tmp, 0⟩
  | some stop, none => ⟨stop, none, tmp, 0⟩
  | none, some port => ⟨port, some (text.drop port), tmp, 0⟩
  | none, none => ⟨text.length, none, tmp, 0⟩

/-- The port of the host, which stays 0 if `sscanf` does not find a number. -/
def Separated.portNumber (x : Separated) : ℤ :=
  (x.port.bind fun text => (scanInt text).map Prod.fst).getD 0

/-- The variables of the loop. `overflow` tells that more was written to `tmp` than there is. -/
structure HostLoop where
  hosts : ℕ
  tmp : List Byte
  overflow : Bool
  session : HostSession
  done : Bool

namespace HostLoop

/-- The variables before the first pass. -/
def start (tmp : List Byte) : HostLoop := ⟨1, tmp, false, ⟨[], 0⟩, false⟩

/-- One pass of the loop, or none at the end. -/
def pass (env : List Byte) (c : HostLoop) : Option HostLoop :=
  if c.done then none
  else
    let text := env.drop c.hosts
    let x := separate c.tmp text
    let session :=
      if 0 ≤ x.len ∧ x.len < addrSize then
        let addr := (strncpy (List.replicate addrSize 0) text x.len.toNat).set x.len.toNat 0
        libusbipAddHosts c.session [⟨addr, x.portNumber⟩]
      else c.session
    let last := env.getD (c.hosts + x.len).toNat 0 = 0
    some
      { hosts := if last then c.hosts else (c.hosts + x.len + 1).toNat
        tmp := x.tmp
        overflow := c.overflow || tmpSize < x.written
        session := session
        done := last }

end HostLoop

/-! ### Entries -/

/-- An entry: a host, and a port in decimal digits if there is one. -/
structure HostEntry where
  name : List Byte
  port : Option (List Byte)
  name_ok : ∀ b ∈ name, b ≠ 0 ∧ b ≠ semicolon ∧ b ≠ slash
  port_ok : ∀ digits ∈ port, digits ≠ [] ∧ ∀ b ∈ digits, isDigit 10 b

namespace HostEntry

def text (e : HostEntry) : List Byte := e.name ++ (e.port.map (slash :: ·)).getD []

/-- The port, or 0 if there is none. -/
def portNumber (e : HostEntry) : ℤ := (e.port.map (value 10)).getD 0

/-- The call for an entry, if the name fits. -/
def call (e : HostEntry) : List (List Byte × ℤ) :=
  if e.name.length < addrSize then [(e.name, e.portNumber)] else []

end HostEntry

/-- The entries with semicolons between them. -/
def hostsText : List HostEntry → List Byte
  | [] => []
  | [e] => e.text
  | e :: e' :: es => e.text ++ semicolon :: hostsText (e' :: es)

/-- The loop ends after a call for each entry, in order, and writes inside of `tmp`. -/
def ParsesHosts (tmp : List Byte) (es : List HostEntry) : Prop :=
  ∃ c, Reaches (HostLoop.pass (0x3d :: hostsText es)) (.start tmp) c ∧
    c.pass (0x3d :: hostsText es) = none ∧ c.session.calls = es.flatMap HostEntry.call ∧
    c.overflow = false

/-! ### Separators -/

section Separate

variable {name digits : List Byte} (more tmp : List Byte)

/-- A text without separators. -/
theorem separate_name (hsemi : semicolon ∉ name) (hslash : slash ∉ name) :
    separate tmp name = ⟨name.length, none, tmp, 0⟩ := by
  rw [separate, strchr_of_not_mem hsemi, strchr_of_not_mem hslash]

/-- A host, and another entry behind it. -/
theorem separate_host (hsemi : semicolon ∉ name) (hslash : slash ∉ name) :
    separate tmp (name ++ semicolon :: more) = ⟨name.length, none, tmp, 0⟩ := by
  rw [separate, strchr_append hsemi, strchr_self, strchr_append hslash, strchr, if_neg (by decide)]
  cases strchr slash more with
  | none => simp
  | some p => simp

/-- A host and a port at the end. -/
theorem separate_last (hsemi : semicolon ∉ name) (hslash : slash ∉ name)
    (hdigits : semicolon ∉ digits) :
    separate tmp (name ++ slash :: digits) = ⟨name.length, some (slash :: digits), tmp, 0⟩ := by
  have hrest : semicolon ∉ slash :: digits := by
    rw [List.mem_cons, not_or]
    exact ⟨by decide, hdigits⟩
  rw [separate, strchr_append hsemi, strchr_of_not_mem hrest, strchr_append hslash, strchr_self]
  simp

/-- A host and a port, and another entry behind them. -/
theorem separate_port (hsemi : semicolon ∉ name) (hslash : slash ∉ name)
    (hdigits : semicolon ∉ digits) :
    (separate tmp (name ++ slash :: (digits ++ semicolon :: more))).len = name.length - 1 := by
  have hrest : semicolon ∉ slash :: digits := by
    rw [List.mem_cons, not_or]
    exact ⟨by decide, hdigits⟩
  rw [separate, strchr_append hsemi, ← List.cons_append, strchr_append hrest, strchr_self,
    List.cons_append, strchr_append hslash, strchr_self]
  simp

end Separate

/-! ### Passes -/

/-- The loop goes on at `text`, behind a character. -/
structure At (env text : List Byte) (c : HostLoop) : Prop where
  behind : ∃ front b, env = front ++ b :: text ∧ b ≠ 0 ∧ c.hosts = front.length + 1
  going : c.done = false

namespace HostLoop

variable {env text name rest : List Byte} {c : HostLoop}

/-- A name that fits is copied. -/
theorem cString_addr (hname : ∀ b ∈ name, b ≠ 0) (hlen : name.length < addrSize)
    (rest : List Byte) :
    cString ((strncpy (List.replicate addrSize 0) (name ++ rest) name.length).set name.length 0) =
      name := by
  have hall : ∀ b ∈ name, decide (b ≠ 0) = true := fun b hb => decide_eq_true (hname b hb)
  have hcopy : cString name = name := List.takeWhile_eq_self_iff.mpr hall
  obtain ⟨k, hk⟩ : ∃ k, addrSize - name.length = k + 1 := ⟨addrSize - name.length - 1, by omega⟩
  rw [strncpy, List.take_left' rfl, hcopy, Nat.sub_self, List.replicate_zero, List.append_nil,
    List.drop_replicate, hk, List.replicate_succ, List.set_append_right _ _ le_rfl, Nat.sub_self,
    List.set_cons_zero, cString, List.takeWhile_append_of_pos hall,
    List.takeWhile_cons_of_neg (by simp), List.append_nil]

theorem drop_hosts (h : At env text c) : env.drop c.hosts = text := by
  obtain ⟨front, b, rfl, -, hhosts⟩ := h.behind
  rw [hhosts, List.append_cons, List.drop_left' (by simp)]

theorem getD_hosts (h : At env text c) (n : ℕ) :
    env.getD ((c.hosts : ℤ) + n).toNat 0 = text.getD n 0 := by
  rw [show ((c.hosts : ℤ) + n).toNat = c.hosts + n by omega, List.getD_eq_getElem?_getD,
    ← List.getElem?_drop, drop_hosts h, ← List.getD_eq_getElem?_getD]

theorem calls_libusbipAddHosts (session : HostSession) (host : Host) :
    (libusbipAddHosts session [host]).calls =
      session.calls ++ [(cString host.addr, host.port)] := List.reverse_cons

/-- A pass with the right length: there is a call if the name fits, and the next pass is behind the
character after the name, unless the text ends there. -/
theorem exists_pass (h : At env (name ++ rest) c) (hname : ∀ b ∈ name, b ≠ 0)
    (hlen : (separate c.tmp (name ++ rest)).len = name.length) :
    ∃ c', c.pass env = some c' ∧
      c'.session.calls = c.session.calls ++ (if name.length < addrSize then
        [(name, (separate c.tmp (name ++ rest)).portNumber)] else []) ∧
      c'.overflow = (c.overflow || decide (tmpSize < (separate c.tmp (name ++ rest)).written)) ∧
      (rest = [] → c'.done = true) ∧ ∀ d rest', rest = d :: rest' → d ≠ 0 → At env rest' c' := by
  have hnext : env.getD ((c.hosts : ℤ) + (name.length : ℤ)).toNat 0 = rest.getD 0 0 := by
    rw [getD_hosts h, List.getD_append_right _ _ _ _ le_rfl, Nat.sub_self]
  rw [pass, if_neg (by rw [h.going]; exact Bool.false_ne_true), drop_hosts h]
  dsimp only
  rw [hlen, hnext]
  refine ⟨_, rfl, ?_, rfl, ?_, ?_⟩
  · dsimp only
    by_cases hfits : name.length < addrSize
    · rw [if_pos hfits, if_pos ⟨by omega, by omega⟩, calls_libusbipAddHosts, Int.toNat_natCast,
        cString_addr hname hfits]
    · rw [if_neg hfits, if_neg (by omega), List.append_nil]
  · rintro rfl
    rfl
  · rintro d rest' rfl hd
    obtain ⟨front, b, henv, -, hhosts⟩ := h.behind
    have hgo : ¬ (d :: rest').getD 0 0 = 0 := hd
    refine ⟨⟨front ++ b :: name, d, by simp [henv], hd, ?_⟩, by simpa using hd⟩
    dsimp only
    rw [if_neg hgo, hhosts]
    simp
    omega

/-- A pass with a length of -1 stays where it is. -/
theorem exists_pass_back (h : At env text c) (hlen : (separate c.tmp text).len = -1) :
    ∃ c', c.pass env = some c' ∧ At env text c' := by
  obtain ⟨front, b, henv, hb, hhosts⟩ := h.behind
  have hlast : env.getD ((c.hosts : ℤ) + -1).toNat 0 = b := by
    rw [show ((c.hosts : ℤ) + -1).toNat = front.length by omega, henv,
      List.getD_append_right _ _ _ _ le_rfl, Nat.sub_self, List.getD_cons_zero]
  rw [pass, if_neg (by rw [h.going]; exact Bool.false_ne_true), drop_hosts h]
  dsimp only
  rw [hlen, hlast]
  refine ⟨_, rfl, ⟨front, b, henv, hb, ?_⟩, by simpa using hb⟩
  dsimp only
  rw [if_neg hb]
  omega

/-- At the slash, with another entry behind the port, the loop does not get on. -/
theorem not_ends_at_slash {digits more : List Byte} (hdigits : semicolon ∉ digits)
    (h : At env (slash :: (digits ++ semicolon :: more)) c) : ¬ Loop.Ends (pass env) c := by
  refine Loop.not_ends_of_closed (fun c hc => ?_) h
  exact exists_pass_back hc
    (@separate_port [] digits more c.tmp List.not_mem_nil List.not_mem_nil hdigits)

/-- An entry with a port, and another one behind it. -/
theorem not_ends_at_port {digits more : List Byte} (hname : ∀ b ∈ name, b ≠ 0)
    (hsemi : semicolon ∉ name) (hslash : slash ∉ name) (hdigits : semicolon ∉ digits)
    (h : At env (name ++ slash :: (digits ++ semicolon :: more)) c) :
    ¬ Loop.Ends (pass env) c := by
  rcases List.eq_nil_or_concat name with rfl | ⟨init, last, rfl⟩
  · exact not_ends_at_slash hdigits h
  · have hlen := separate_port more c.tmp hsemi hslash hdigits
    rw [List.concat_eq_append] at h hlen hname
    rw [List.append_assoc, List.singleton_append] at h hlen
    obtain ⟨c', hpass, -, -, -, hat⟩ := exists_pass h
      (fun b hb => hname b (List.mem_append_left _ hb)) (by rw [hlen]; simp)
    intro hends
    exact not_ends_at_slash hdigits (hat last _ rfl (hname last (by simp)))
      ((Loop.ends_congr (.single hpass)).mp hends)

end HostLoop

/-! ### Lists of entries -/

private theorem ne_of_isDigit : ∀ b : Byte, isDigit 10 b → b ≠ 0 ∧ b ≠ semicolon ∧ b ≠ slash := by
  decide

namespace HostEntry

variable (e : HostEntry) {digits : List Byte}

theorem text_of_none (h : e.port = none) : e.text = e.name := by
  rw [text, h]
  exact List.append_nil _

theorem text_of_some (h : e.port = some digits) : e.text = e.name ++ slash :: digits := by
  rw [text, h]
  rfl

/-- What is called for the last entry: its port is not read, and is a host of its own. -/
def lastCalls : List (List Byte × ℤ) :=
  (if e.name.length < addrSize then [(e.name, (0 : ℤ))] else []) ++
    match e.port with
    | none => []
    | some digits => if digits.length < addrSize then [(digits, (0 : ℤ))] else []

theorem ne_zero : ∀ b ∈ e.name, b ≠ 0 := fun b hb => (e.name_ok b hb).1

theorem semicolon_not_mem : semicolon ∉ e.name := fun h => (e.name_ok _ h).2.1 rfl

theorem slash_not_mem : slash ∉ e.name := fun h => (e.name_ok _ h).2.2 rfl

variable {e}

theorem digits_ok (h : e.port = some digits) : (∀ b ∈ digits, b ≠ 0) ∧ semicolon ∉ digits ∧
    slash ∉ digits := by
  have hall := fun b hb => ne_of_isDigit b ((e.port_ok digits h).2 b hb)
  exact ⟨fun b hb => (hall b hb).1, fun hmem => (hall _ hmem).2.1 rfl,
    fun hmem => (hall _ hmem).2.2 rfl⟩

end HostEntry

namespace HostLoop

variable {env more : List Byte} {c : HostLoop} {e : HostEntry}

/-- An entry without a port is understood. -/
theorem exists_pass_plain (hport : e.port = none) (h : At env (e.text ++ semicolon :: more) c) :
    ∃ c', c.pass env = some c' ∧ At env more c' ∧
      c'.session.calls = c.session.calls ++ e.call ∧ c'.overflow = c.overflow := by
  have hsep := separate_host more c.tmp e.semicolon_not_mem e.slash_not_mem
  rw [e.text_of_none hport] at h
  obtain ⟨c', hpass, hcalls, hoverflow, -, hat⟩ := exists_pass h e.ne_zero (by rw [hsep])
  rw [hsep] at hcalls hoverflow
  refine ⟨c', hpass, hat _ _ rfl (by decide), ?_, ?_⟩
  · rw [hcalls, HostEntry.call, HostEntry.portNumber, hport]
    rfl
  · rw [hoverflow]
    exact Bool.or_false _

/-- The last name in a text without separators. -/
theorem exists_pass_name {name : List Byte} (hname : ∀ b ∈ name, b ≠ 0) (hsemi : semicolon ∉ name)
    (hslash : slash ∉ name) (h : At env name c) :
    ∃ c', c.pass env = some c' ∧ c'.done = true ∧ c'.session.calls =
      c.session.calls ++ (if name.length < addrSize then [(name, 0)] else []) ∧
      c'.overflow = c.overflow := by
  have hsep := separate_name c.tmp hsemi hslash
  rw [← List.append_nil name] at h hsep
  obtain ⟨c', hpass, hcalls, hoverflow, hdone, -⟩ := exists_pass h hname (by rw [hsep]; simp)
  rw [hsep] at hcalls hoverflow
  exact ⟨c', hpass, hdone rfl, hcalls, hoverflow.trans (Bool.or_false _)⟩

/-- The number of the port is not read, and the port is taken for another host. -/
theorem exists_pass_port {digits : List Byte} (hport : e.port = some digits)
    (h : At env e.text c) :
    ∃ c', c.pass env = some c' ∧ At env digits c' ∧ c'.session.calls =
      c.session.calls ++ (if e.name.length < addrSize then [(e.name, 0)] else []) ∧
      c'.overflow = c.overflow := by
  obtain ⟨-, hsemi, -⟩ := e.digits_ok hport
  have hsep := separate_last c.tmp e.semicolon_not_mem e.slash_not_mem hsemi
  rw [e.text_of_some hport] at h
  obtain ⟨c', hpass, hcalls, hoverflow, -, hat⟩ := exists_pass h e.ne_zero (by rw [hsep])
  rw [hsep] at hcalls hoverflow
  refine ⟨c', hpass, hat _ _ rfl (by decide), ?_, hoverflow.trans (Bool.or_false _)⟩
  have hscan : scanInt (slash :: digits) = none :=
    scanInt_eq_none (by decide) (by decide) (by decide) (by decide) digits
  rw [hcalls, Separated.portNumber]
  dsimp only
  rw [Option.bind_some, hscan]
  rfl

/-- Entries without ports are understood, up to another entry. -/
theorem exists_reaches {es : List HostEntry} (hplain : ∀ x ∈ es, x.port = none) (e : HostEntry)
    (es' : List HostEntry) (h : At env (hostsText (es ++ e :: es')) c) :
    ∃ c', Reaches (pass env) c c' ∧ At env (hostsText (e :: es')) c' ∧
      c'.session.calls = c.session.calls ++ es.flatMap HostEntry.call ∧
      c'.overflow = c.overflow := by
  induction es generalizing c with
  | nil => exact ⟨c, .refl, h, (List.append_nil _).symm, rfl⟩
  | cons x es ih =>
    have htext : hostsText (x :: es ++ e :: es') =
        x.text ++ semicolon :: hostsText (es ++ e :: es') := by
      cases es with
      | nil => rfl
      | cons y es => rfl
    rw [htext] at h
    obtain ⟨c₁, hpass, hat, hcalls, hoverflow⟩ :=
      exists_pass_plain (hplain x List.mem_cons_self) h
    obtain ⟨c', hreach, hat', hcalls', hoverflow'⟩ :=
      ih (fun y hy => hplain y (List.mem_cons_of_mem x hy)) hat
    refine ⟨c', .head hpass hreach, hat', ?_, hoverflow'.trans hoverflow⟩
    rw [hcalls', hcalls, List.append_assoc, List.flatMap_cons]

/-- The calls for the last entry. -/
theorem exists_last (h : At env e.text c) :
    ∃ c', Reaches (pass env) c c' ∧ c'.done = true ∧ c'.overflow = c.overflow ∧
      c'.session.calls = c.session.calls ++ e.lastCalls := by
  cases hport : e.port with
  | none =>
    rw [e.text_of_none hport] at h
    obtain ⟨c', hpass, hdone, hcalls, hoverflow⟩ :=
      exists_pass_name e.ne_zero e.semicolon_not_mem e.slash_not_mem h
    refine ⟨c', .single hpass, hdone, hoverflow, ?_⟩
    rw [hcalls, HostEntry.lastCalls, hport, List.append_nil]
  | some digits =>
    obtain ⟨c₁, hpass, hat, hcalls, hoverflow⟩ := exists_pass_port hport h
    obtain ⟨hzero, hsemi, hslash⟩ := e.digits_ok hport
    obtain ⟨c', hpass', hdone, hcalls', hoverflow'⟩ := exists_pass_name hzero hsemi hslash hat
    have hreach : Reaches (pass env) c c' := .tail (.single hpass) hpass'
    refine ⟨c', hreach, hdone, hoverflow'.trans hoverflow, ?_⟩
    rw [hcalls', hcalls, HostEntry.lastCalls, hport, List.append_assoc]

end HostLoop

/-- The list is understood: only the last entry has a port, if any, and that is 0 or its host is too
long, and it would itself be too long for a host. -/
def Understood (es : List HostEntry) : Prop :=
  (∀ e ∈ es.dropLast, e.port = none) ∧ ∀ e ∈ es.getLast?, ∀ digits ∈ e.port,
    addrSize ≤ digits.length ∧ (addrSize ≤ e.name.length ∨ value 10 digits = 0)

/-- The first port that is not in the last entry. -/
theorem exists_port (es : List HostEntry) (h : ∃ e ∈ es.dropLast, e.port ≠ none) :
    ∃ front e e' back, es = front ++ e :: e' :: back ∧ (∀ x ∈ front, x.port = none) ∧
      e.port ≠ none := by
  induction es with
  | nil => exact absurd h (by simp)
  | cons x es ih =>
    cases es with
    | nil => exact absurd h (by simp)
    | cons y es =>
      by_cases hx : x.port = none
      · rw [List.dropLast_cons_cons] at h
        obtain ⟨e, he, hport⟩ := h
        have he : e ∈ (y :: es).dropLast :=
          (List.mem_cons.mp he).resolve_left fun heq => hport (heq ▸ hx)
        obtain ⟨front, e, e', back, heq, hfront, hne⟩ := ih ⟨e, he, hport⟩
        refine ⟨x :: front, e, e', back, by rw [heq, List.cons_append], fun z hz => ?_, hne⟩
        rcases List.mem_cons.mp hz with rfl | hz
        · exact hx
        · exact hfront z hz
      · exact ⟨[], x, y, es, rfl, nofun, hx⟩

/-- The calls for the last entry are right if its port is not missed, and is too long for a host. -/
theorem HostEntry.lastCalls_eq_iff (e : HostEntry) : e.lastCalls = e.call ↔
    ∀ digits ∈ e.port, addrSize ≤ digits.length ∧
      (addrSize ≤ e.name.length ∨ value 10 digits = 0) := by
  rw [lastCalls, call, portNumber]
  cases hport : e.port with
  | none =>
    dsimp only
    rw [List.append_nil]
    exact iff_of_true rfl nofun
  | some digits =>
    simp only [Option.map_some, Option.getD_some, Option.mem_some_iff, forall_eq']
    by_cases hname : e.name.length < addrSize <;> by_cases hdigits : digits.length < addrSize
    all_goals simp [hname, hdigits] <;> omega

theorem at_start (tmp text : List Byte) : At (0x3d :: text) text (.start tmp) :=
  ⟨⟨[], 0x3d, rfl, by decide, rfl⟩, rfl⟩

/-- **Which lists of hosts are understood.** For any entries, the loop ends after the right calls,
and writes inside of the buffer, if and only if no port has to be read. -/
theorem parsesHosts_iff (tmp : List Byte) (e : HostEntry) (es : List HostEntry) :
    ParsesHosts tmp (e :: es) ↔ Understood (e :: es) := by
  generalize hes : e :: es = es
  by_cases hplain : ∀ e ∈ es.dropLast, e.port = none
  · rcases List.eq_nil_or_concat es with rfl | ⟨front, e, rfl⟩
    · exact absurd hes (List.cons_ne_nil _ _)
    rw [List.concat_eq_append] at hplain ⊢
    rw [List.dropLast_concat] at hplain
    obtain ⟨c, hreach, hat, hcalls, hoverflow⟩ :=
      HostLoop.exists_reaches hplain e [] (at_start tmp (hostsText (front ++ [e])))
    obtain ⟨c', hreach', hdone, hoverflow', hcalls'⟩ := HostLoop.exists_last hat
    have hend : c'.pass (0x3d :: hostsText (front ++ [e])) = none := if_pos hdone
    rw [hcalls, List.append_assoc] at hcalls'
    have hsame : c'.session.calls = (front ++ [e]).flatMap HostEntry.call ↔
        e.lastCalls = e.call := by
      rw [hcalls', List.flatMap_append, List.flatMap_singleton]
      exact (List.append_right_inj _).trans (List.append_right_inj _)
    rw [Understood, List.dropLast_concat, List.getLast?_concat, and_iff_right hplain]
    simp only [Option.mem_some_iff, forall_eq']
    rw [← e.lastCalls_eq_iff, ← hsame]
    refine ⟨fun ⟨d, hd, hdend, hdcalls, _⟩ => ?_, fun h => ?_⟩
    · rwa [Loop.eq_of_ends (hreach.trans hreach') hend hd hdend]
    · exact ⟨c', hreach.trans hreach', hend, h, hoverflow'.trans hoverflow⟩
  · refine ⟨fun ⟨c, hreach, hend, _⟩ => ?_, fun h => absurd h.1 hplain⟩
    obtain ⟨e, he, hport⟩ : ∃ e ∈ es.dropLast, e.port ≠ none := by
      simpa using hplain
    obtain ⟨front, e, e', back, rfl, hfront, hport⟩ := exists_port es ⟨e, he, hport⟩
    obtain ⟨digits, hdigits⟩ := Option.ne_none_iff_exists'.mp hport
    obtain ⟨c', hreach', hat, -⟩ := HostLoop.exists_reaches hfront e (e' :: back)
      (at_start tmp (hostsText (front ++ e :: e' :: back)))
    rw [hostsText, e.text_of_some hdigits, List.append_assoc, List.cons_append] at hat
    refine absurd ?_ (HostLoop.not_ends_at_port e.ne_zero e.semicolon_not_mem e.slash_not_mem
      (e.digits_ok hdigits).2.1 hat)
    exact (Loop.ends_congr hreach').mp (Loop.ends_iff.mpr ⟨c, hreach, hend⟩)

/-- `a/80` -/
private def hostWithPort : HostEntry where
  name := [0x61]
  port := some [0x38, 0x30]
  name_ok := by decide
  port_ok := by
    rintro _ ⟨⟩
    decide

theorem not_parsesHosts_port : ¬ ParsesHosts (List.replicate tmpSize 0) [hostWithPort] := by
  rintro ⟨c, hreach, hend, hcalls, -⟩
  obtain ⟨c', hreach', hdone, -, hcalls'⟩ :=
    HostLoop.exists_last (at_start (List.replicate tmpSize 0) hostWithPort.text)
  rw [Loop.eq_of_ends hreach' (if_pos hdone) hreach hend, hcalls] at hcalls'
  revert hcalls'
  decide

end Usbip.Client
