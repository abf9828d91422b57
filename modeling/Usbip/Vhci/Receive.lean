import Usbip.Vhci.UnlinkCleanup
import Usbip.Vhci.Enqueue
import Usbip.Wire.Bounds

/-!
# The URB of a RET_SUBMIT

`vhci_recv_ret_submit` takes the request off `priv_rx` and frees its `vhci_priv` before it reads
the payload. From then on the URB is in the hands of this function alone: `hcpriv` is clear, so
that a dequeue does nothing, and the cleanup looks at the lists only. When the payload or the
packet descriptors cannot be read, the function returns, and the URB is lost.

The machine `receiver` adds to the port what the reads work on, and for each URB that has been
taken off (`Taken`) the calls that concern it until the core submits it again. The URB is unlinked
from its endpoint and given back once, if and only if what the header announces can be read
(`ret_submit_retired_iff`).
-/

namespace Usbip.Vhci

open Framing

/-! ### The reads after the header -/

/-- `usbip_recv_xbuff` and `usbip_recv_iso` for a URB that has the values of the header. `stream` is
what arrives before the connection fails or ends; `buffer` says whether there is a transfer
buffer, without which `usbip_recv` returns `-EINVAL`. -/
def recvRetBody (kzalloc : Wire.Allocator) (buffer : Bool) (urb : Wire.Urb) (stream : List Byte) :
    Option Wire.Urb :=
  if 0 < Wire.xbuffSize .vhci urb ∧ buffer = false then none
  else
    match Wire.recvBody .vhci kzalloc urb stream with
    | some (.ok urb, _) => some urb
    | _ => none

/-- The payload goes into the transfer buffer and arrives, and then the packet descriptors arrive
and add up. -/
def Readable (kzalloc : Wire.Allocator) (buffer : Bool) (urb : Wire.Urb) (stream : List Byte) :
    Prop :=
  let n := (Wire.xbuffSize .vhci urb).toNat
  (0 < n → buffer = true ∧ n ≤ stream.length) ∧
    (urb.isoc = true → urb.numberOfPackets ≠ 0 →
      Wire.DescsArrive kzalloc urb.numberOfPackets (stream.drop n) ∧
        Wire.AddUp (Wire.descs urb.numberOfPackets (stream.drop n)) urb.actualLength)

/-- The two reads succeed exactly when everything can be read. -/
theorem recvRetBody_isSome_iff {kzalloc : Wire.Allocator} {buffer : Bool} {urb : Wire.Urb}
    {stream : List Byte} :
    (recvRetBody kzalloc buffer urb stream).isSome ↔ Readable kzalloc buffer urb stream := by
  have hok : (recvRetBody kzalloc buffer urb stream).isSome ↔
      ¬ (0 < Wire.xbuffSize .vhci urb ∧ buffer = false) ∧
        ∃ urb' rest, Wire.recvBody .vhci kzalloc urb stream = some (.ok urb', rest) := by
    rw [recvRetBody]
    split
    next hnull => simp [hnull]
    next hnull =>
      split
      next urb' rest hbody => simp [hnull, hbody]
      next hbody =>
        refine iff_of_false (by simp) fun ⟨_, urb', rest, hsome⟩ => ?_
        exact hbody urb' rest hsome
  rw [hok, Readable, Wire.recvBody, Wire.usbipRecvXbuff]
  by_cases hsize : 0 < Wire.xbuffSize .vhci urb
  · have hpos : 0 < (Wire.xbuffSize .vhci urb).toNat := by omega
    by_cases hlen : (Wire.xbuffSize .vhci urb).toNat ≤ stream.length
    · have hread : recv (Wire.xbuffSize .vhci urb).toNat stream = some
          (stream.take (Wire.xbuffSize .vhci urb).toNat,
            stream.drop (Wire.xbuffSize .vhci urb).toNat) := if_pos hlen
      rw [if_neg (not_not.mpr hsize), hread, Option.map_some, Option.bind_some,
        Wire.usbipRecvIso_ok_iff]
      simp only [hsize, hpos, hlen, true_and, and_true, true_imp_iff, Bool.not_eq_false]
      exact Iff.rfl
    · simp [hsize, hpos, hlen, recv]
  · have hzero : (Wire.xbuffSize .vhci urb).toNat = 0 := by omega
    rw [if_pos hsize, Option.bind_some, Wire.usbipRecvIso_ok_iff]
    simp [hsize, hzero]

/-! ### The port with its endpoints -/

/-- The calls between the core and the controller that concern one URB. -/
inductive CoreCall
  | enqueue (urb : ℕ)
  /-- `usb_hcd_unlink_urb_from_ep` -/
  | unlinkFromEp (urb : ℕ)
  /-- `usb_hcd_giveback_urb` -/
  | giveback (urb : ℕ)
  deriving DecidableEq, Repr

def CoreCall.urb : CoreCall → ℕ
  | .enqueue urb | .unlinkFromEp urb | .giveback urb => urb

/-- The calls in a step from `s` to `s'`. The error labels of `vhci_urb_enqueue` unlink a URB that
has been linked; the receive thread and the cleanup unlink a URB before they give it back. -/
def coreCalls (s : Port) (a : Act) (s' : Port) : List CoreCall :=
  match a with
  | .enqueue urb linkRet _ =>
    if urb.status ≠ einprogress ∨ s.status = .null ∨ s.status = .error then []
    else if linkRet = 0 ∧ urb.devnum = 0 ∧ urb.request ≠ some 6 then
      [.enqueue urb.id, .unlinkFromEp urb.id]
    else [.enqueue urb.id]
  | .dequeue urb checkRet _ =>
    if (s.hcpriv urb).isSome ∧ checkRet = 0 ∧ s.tcpSocket = false then [.unlinkFromEp urb] else []
  | .callerGiveback urb => [.giveback urb]
  | .rxGiveback => s.rx.held.flatMap fun urb => [.unlinkFromEp urb, .giveback urb]
  | .cleanup => s'.shut.held.map .unlinkFromEp
  | .cleanupGiveback => s.shut.held.map .giveback
  | _ => []

/-- A URB that `vhci_recv_ret_submit` has taken off `priv_rx`: the values it has from the header,
what follows the header on the socket, and the calls for it since then, until the core submits it
`again`. -/
structure Taken where
  urb : ℕ
  buffer : Bool
  data : Wire.Urb
  kzalloc : Wire.Allocator
  stream : List Byte
  unlinked : ℕ
  givenBack : ℕ
  again : Bool

namespace Taken

def see (t : Taken) : CoreCall → Taken
  | .enqueue urb => if urb = t.urb then { t with again := true } else t
  | .unlinkFromEp urb =>
    if urb = t.urb ∧ t.again = false then { t with unlinked := t.unlinked + 1 } else t
  | .giveback urb =>
    if urb = t.urb ∧ t.again = false then { t with givenBack := t.givenBack + 1 } else t

def seeAll (calls : List CoreCall) (t : Taken) : Taken := calls.foldl see t

/-- What the header has announced can be read. -/
def Complete (t : Taken) : Prop := Readable t.kzalloc t.buffer t.data t.stream

/-- The URB has been unlinked from its endpoint and given back, each once. -/
def Retired (t : Taken) : Prop := t.unlinked = 1 ∧ t.givenBack = 1

instance (t : Taken) : Decidable t.Retired := by
  unfold Retired
  infer_instance

end Taken

/-- The port, the URBs behind its requests, and what follows on the socket after the header that is
being worked on. -/
structure Receiver where
  port : Port
  urbs : ℕ → Wire.Urb
  buffers : ℕ → Bool
  kzalloc : Wire.Allocator
  stream : List Byte
  taken : List Taken

inductive RxAct
  | enqueue (urb : Urb) (data : Wire.Urb) (buffer : Bool) (linkRet : ℤ) (alloc : Bool)
  | retSubmit (seqnum : BitVec 32) (rpdu : Wire.UsbipHeaderRetSubmit) (kzalloc : Wire.Allocator)
    (stream : List Byte)
  | payload
  | port (a : Act)

/-- The steps of the port that have a label of their own. -/
def Act.receiving : Act → Bool
  | .enqueue .. | .rxRetSubmit .. | .rxPayload _ => true
  | _ => false

namespace Receiver

/-- A step of the port, seen from the URBs that have been taken. -/
def portStep (s : Receiver) (a : Act) : Option Receiver :=
  (s.port.step a).map fun port =>
    { s with port := port, taken := s.taken.map (Taken.seeAll (coreCalls s.port a port)) }

/-- The URB is taken off `priv_rx` and gets the values of the header. -/
def take (s : Receiver) (urb : ℕ) (rpdu : Wire.UsbipHeaderRetSubmit) (kzalloc : Wire.Allocator)
    (stream : List Byte) : Receiver :=
  { s with
    urbs := Function.update s.urbs urb (Wire.unpackRetSubmit rpdu (s.urbs urb))
    kzalloc := kzalloc
    stream := stream
    taken := s.taken ++ [⟨urb, s.buffers urb, Wire.unpackRetSubmit rpdu (s.urbs urb), kzalloc,
      stream, 0, 0, false⟩] }

/-- Both reads. -/
def read (s : Receiver) (urb : ℕ) : Option Wire.Urb :=
  recvRetBody s.kzalloc (s.buffers urb) (s.urbs urb) s.stream

def step (s : Receiver) : RxAct → Option Receiver
  | .enqueue urb data buffer linkRet alloc =>
    (s.portStep (.enqueue urb linkRet alloc)).map fun s =>
      { s with
        urbs := Function.update s.urbs urb.id data
        buffers := Function.update s.buffers urb.id buffer }
  | .retSubmit seqnum rpdu kzalloc stream =>
    (s.portStep (.rxRetSubmit seqnum rpdu.status.toInt)).map fun s =>
      match s.port.rx with
      | .retSubmit urb => s.take urb rpdu kzalloc stream
      | _ => s
  | .payload =>
    match s.port.rx with
    | .retSubmit urb =>
      (s.portStep (.rxPayload (s.read urb).isSome)).map fun s' =>
        { s' with urbs := Function.update s.urbs urb ((s.read urb).getD (s.urbs urb)) }
    | _ => none
  | .port a => if a.receiving then none else s.portStep a

end Receiver

def receiver (seqnum : BitVec 32) (udev : Option ℕ) (urb : Wire.Urb) (kzalloc : Wire.Allocator) :
    Machine Receiver RxAct where
  init := ⟨attached seqnum udev, fun _ => urb, fun _ => false, kzalloc, [], []⟩
  step := Receiver.step

/-! ### Whom a step concerns -/

namespace Taken

variable {t : Taken}

/-- Once the core has submitted the URB again, nothing is counted any more. -/
theorem see_of_again (h : t.again = true) (c : CoreCall) : t.see c = t := by
  obtain ⟨urb, buffer, data, kzalloc, stream, unlinked, givenBack, again⟩ := t
  obtain rfl : again = true := h
  cases c with
  | enqueue v => simp [see]
  | unlinkFromEp v => simp [see]
  | giveback v => simp [see]

theorem seeAll_of_again (h : t.again = true) (calls : List CoreCall) : t.seeAll calls = t := by
  induction calls with
  | nil => rfl
  | cons c calls ih => rw [seeAll, List.foldl_cons, see_of_again h]; exact ih

theorem see_of_ne {c : CoreCall} (h : c.urb ≠ t.urb) : t.see c = t := by
  cases c with
  | enqueue v => exact if_neg h
  | unlinkFromEp v => exact if_neg fun hv => h hv.1
  | giveback v => exact if_neg fun hv => h hv.1

/-- Calls for other URBs leave the record alone. -/
theorem seeAll_of_ne {calls : List CoreCall} (h : ∀ c ∈ calls, c.urb ≠ t.urb) :
    t.seeAll calls = t := by
  induction calls with
  | nil => rfl
  | cons c calls ih =>
    rw [seeAll, List.foldl_cons, see_of_ne (h c List.mem_cons_self)]
    exact ih fun d hd => h d (List.mem_cons_of_mem _ hd)

theorem seeAll_enqueue (calls : List CoreCall) :
    t.seeAll (.enqueue t.urb :: calls) = { t with again := true } := by
  have hsee : t.see (.enqueue t.urb) = { t with again := true } := if_pos rfl
  rw [seeAll, List.foldl_cons, hsee]
  exact seeAll_of_again rfl calls

/-- The receive thread retires the URB. -/
theorem seeAll_retire (h : t.again = false) :
    t.seeAll [.unlinkFromEp t.urb, .giveback t.urb] =
      { t with unlinked := t.unlinked + 1, givenBack := t.givenBack + 1 } := by
  obtain ⟨urb, buffer, data, kzalloc, stream, unlinked, givenBack, again⟩ := t
  obtain rfl : again = false := h
  simp [seeAll, see]

end Taken

/-- The URBs that are not in the hands of the receive thread. -/
def Port.elsewhere (s : Port) : List ℕ := s.privs.map (·.urb) ++ (s.shut.held ++ s.callers)

theorem Port.mem_held_of_elsewhere {s : Port} {u : ℕ} (h : u ∈ s.elsewhere) : u ∈ s.held := by
  simp only [Port.elsewhere, Port.held, Port.retiring, List.mem_append] at h ⊢
  tauto

theorem Port.core_vhciUrbEnqueue (s : Port) (urb : Urb) (linkRet : ℤ) (alloc : Bool) :
    (s.vhciUrbEnqueue urb linkRet alloc).2.core =
      if urb.status ≠ einprogress ∨ s.status = .null ∨ s.status = .error then s.core
      else s.core ++ [.enqueue urb.id] := by
  have hsend : ∀ t : Port, (t.vhciTxUrb urb alloc).core = t.core := by
    intro t
    rw [vhciTxUrb]
    split
    · rfl
    split
    · rfl
    · rfl
  rw [vhciUrbEnqueue]
  by_cases hstatus : urb.status ≠ einprogress
  · rw [if_pos hstatus, if_pos (.inl hstatus)]
  by_cases hdead : s.status = .null ∨ s.status = .error
  · rw [if_neg hstatus, if_pos hdead, if_pos (.inr hdead)]
  rw [if_neg hstatus, if_neg hdead, if_neg (not_or.mpr ⟨hstatus, hdead⟩)]
  split
  · rfl
  split
  · split
    · rfl
    · exact hsend _
    · rfl
  · exact hsend _

/-- The cleanup moves URBs only from `priv_rx` into its own hands. -/
theorem Port.unlinkCleanupLoop_elsewhere (us : List VhciUnlink) (t : Port) :
    (∀ u ∈ (unlinkCleanupLoop us t).elsewhere, u ∈ t.elsewhere) ∧
      (unlinkCleanupLoop us t).core = t.core := by
  refine unlinkCleanupLoop_cases
    (motive := fun t' => (∀ u ∈ t'.elsewhere, u ∈ t.elsewhere) ∧ t'.core = t.core)
    ⟨fun u hu => ?_, rfl⟩ (fun seqnum urb s₁ rest hp => ?_) us
  · simp only [elsewhere, ShutPc.held, privs, List.nil_append, List.mem_append] at hu ⊢
    exact hu.imp_right .inr
  obtain ⟨l₁, p, l₂, hl, rfl, rfl⟩ := pickupUrbAndFreePriv_eq_some hp
  refine ⟨fun u hu => ?_, rfl⟩
  simp only [elsewhere, privs, hl, ShutPc.held, setStatus, List.map_append, List.map_cons,
    List.mem_append, List.mem_cons, List.not_mem_nil, or_false] at hu ⊢
  tauto

theorem Port.mem_elsewhere_of_shut {s : Port} {u : ℕ} (hu : u ∈ s.shut.held) : u ∈ s.elsewhere :=
  List.mem_append_right _ (List.mem_append_left _ hu)

variable {s s' : Port} {a : Act}

/-- A step concerns a URB that the core submits anew, one that somebody else than the receive
thread has, the one that the receive thread retires, or none. -/
theorem coreCalls_cases (hinv : PortInv s) (hs : s.step a = some s') (u : ℕ) :
    (outstanding s.core u = false ∧ ∃ rest, coreCalls s a s' = .enqueue u :: rest) ∨
      u ∈ s.elsewhere ∨ (a = .rxGiveback ∧ s.rx = .giveback u) ∨
        (∀ c ∈ coreCalls s a s', c.urb ≠ u) ∧ outstanding s'.core u = outstanding s.core u := by
  have hnone : coreCalls s a s' = [] → s'.core = s.core →
      (∀ c ∈ coreCalls s a s', c.urb ≠ u) ∧ outstanding s'.core u = outstanding s.core u := by
    intro hcalls hcore
    rw [hcalls, hcore]
    exact ⟨fun c hc => absurd hc List.not_mem_nil, rfl⟩
  cases Port.moves_of_step hs with
  | @enqueue urb hout linkRet alloc =>
    by_cases hrej : urb.status ≠ einprogress ∨ s.status = .null ∨ s.status = .error
    · -- turned down before `usb_hcd_link_urb_to_ep` is called
      exact .inr (.inr (.inr (hnone (if_pos hrej)
        ((Port.core_vhciUrbEnqueue s urb linkRet alloc).trans (if_pos hrej)))))
    have hcore := (Port.core_vhciUrbEnqueue s urb linkRet alloc).trans (if_neg hrej)
    have hcalls : coreCalls s (.enqueue urb linkRet alloc) (s.vhciUrbEnqueue urb linkRet alloc).2 =
        _ := if_neg hrej
    by_cases hu : urb.id = u
    · subst hu
      -- linking it to the endpoint is the first call
      refine .inl ⟨hout, ?_⟩
      rw [hcalls]
      split
      · exact ⟨_, rfl⟩
      · exact ⟨_, rfl⟩
    · refine .inr (.inr (.inr ⟨?_, by rw [hcore, outstanding_enqueue, if_neg hu]⟩))
      rw [hcalls]
      split
      · simp [CoreCall.urb, hu]
      · simp [CoreCall.urb, hu]
  | dequeueGone hgone checkRet alloc =>
    exact .inr (.inr (.inr (hnone (by simp [coreCalls, hgone]) rfl)))
  | dequeueRefused hid hret alloc =>
    exact .inr (.inr (.inr (hnone (by simp [coreCalls, hret]) rfl)))
  | dequeueFailed hid hsocket | dequeueLinked hid hsocket hp =>
    exact .inr (.inr (.inr (hnone (by simp [coreCalls, hsocket]) rfl)))
  | @dequeueClosed urb id hid hsocket alloc =>
    obtain ⟨p, hp, -, rfl⟩ := hinv.linked.live _ _ hid
    by_cases hu : p.urb = u
    · exact .inr (.inl (List.mem_append_left _ (List.mem_map.mpr ⟨p, hp, hu⟩)))
    · refine .inr (.inr (.inr ⟨?_, rfl⟩))
      simp [coreCalls, hid, hsocket, CoreCall.urb, hu]
  | @callerGiveback urb hmem =>
    by_cases hu : urb = u
    · exact .inr (.inl (List.mem_append_right _ (List.mem_append_right _ (hu ▸ hmem))))
    · refine .inr (.inr (.inr ⟨by simp [coreCalls, CoreCall.urb, hu], ?_⟩))
      rw [Port.givebackUrb, outstanding_giveback, if_neg hu]
  | @rxGiveback urb hrx =>
    by_cases hu : urb = u
    · exact .inr (.inr (.inl ⟨rfl, hu ▸ hrx⟩))
    · refine .inr (.inr (.inr ⟨by simp [coreCalls, CoreCall.urb, hrx, RxPc.held, hu], ?_⟩))
      rw [Port.givebackUrb, outstanding_giveback, if_neg hu]
  | @cleanupGiveback urb hshut =>
    by_cases hu : urb = u
    · refine .inr (.inl (List.mem_append_right _ (List.mem_append_left _ ?_)))
      rw [hshut, hu]
      exact List.mem_singleton_self u
    · refine .inr (.inr (.inr ⟨by simp [coreCalls, CoreCall.urb, hshut, ShutPc.held, hu], ?_⟩))
      rw [Port.givebackUrb, outstanding_giveback, if_neg hu]
  | retSubmit hrx hpick | pickup hrx hpick =>
    obtain ⟨l₁, p, l₂, -, rfl, rfl⟩ := Port.pickupUrbAndFreePriv_eq_some hpick
    exact .inr (.inr (.inr (hnone rfl rfl)))
  | retUnlink hrx hun =>
    obtain ⟨l₁, l₂, -, rfl⟩ := Port.dequeuePendingUnlink_eq_some hun
    exact .inr (.inr (.inr (hnone rfl rfl)))
  | cleanup hshut =>
    obtain ⟨hheld, hcore⟩ := Port.unlinkCleanupLoop_elsewhere s.unlinkRx { s with unlinkTx := [] }
    refine or_iff_not_imp_left.mpr fun _ => or_iff_not_imp_left.mpr fun hu => .inr ⟨?_, ?_⟩
    · intro c hc
      obtain ⟨v, hv, rfl⟩ := List.mem_map.mp hc
      exact fun hvu => hu (hvu ▸ hheld v (Port.mem_elsewhere_of_shut hv))
    · rw [hcore]
  | cleanupOn hshut =>
    obtain ⟨hheld, hcore⟩ := Port.unlinkCleanupLoop_elsewhere s.unlinkRx s
    refine or_iff_not_imp_left.mpr fun _ => or_iff_not_imp_left.mpr fun hu => .inr ⟨?_, ?_⟩
    · intro c hc
      obtain ⟨v, hv, rfl⟩ := List.mem_map.mp hc
      exact fun hvu => hu (hvu ▸ hheld v (Port.mem_elsewhere_of_shut hv))
    · rw [hcore]
  | _ => exact .inr (.inr (.inr (hnone rfl rfl)))

theorem Port.mem_elsewhere_mono {s s' : Port} {u : ℕ} (hu : u ∈ s'.elsewhere)
    (hprivs : s'.privs ⊆ s.privs) (hshut : s'.shut = s.shut) (hcallers : s'.callers ⊆ s.callers) :
    u ∈ s.elsewhere := by
  simp only [elsewhere, List.mem_append, List.mem_map, hshut] at hu ⊢
  exact hu.imp (fun ⟨p, hp, hpu⟩ => ⟨p, hprivs hp, hpu⟩) fun h => h.imp_right fun h => hcallers h

theorem Port.mem_elsewhere_vhciUrbEnqueue {s : Port} {urb : Urb}
    (hout : outstanding s.core urb.id = false) (linkRet : ℤ) (alloc : Bool) {u : ℕ}
    (hu : u ∈ (s.vhciUrbEnqueue urb linkRet alloc).2.elsewhere) :
    u ∈ s.elsewhere ∨ outstanding s.core u = false := by
  have hsend : ∀ t : Port, ∀ v ∈ (t.vhciTxUrb urb alloc).elsewhere,
      v ∈ t.elsewhere ∨ v = urb.id := by
    intro t v hv
    rw [vhciTxUrb] at hv
    split at hv
    · exact .inl hv
    split at hv
    · exact .inl hv
    · simp only [elsewhere, privs, List.map_append, List.map_cons, List.map_nil, List.mem_append,
        List.mem_singleton] at hv ⊢
      tauto
  have hcall : ∀ t : Port, ∀ v ∈ (t.noNeedXmit urb.id).elsewhere, v ∈ t.elsewhere ∨ v = urb.id := by
    intro t v hv
    simp only [noNeedXmit, elsewhere, List.mem_append, List.mem_singleton] at hv ⊢
    exact or_assoc.mpr (hv.imp_right or_assoc.mpr)
  have hnew : ∀ v, v ∈ s.elsewhere ∨ v = urb.id → v ∈ s.elsewhere ∨ outstanding s.core v = false :=
    fun v hv => hv.imp_right fun (h : v = urb.id) => h ▸ hout
  revert u
  exact vhciUrbEnqueue_cases
    (motive := fun t => ∀ {u}, u ∈ t.elsewhere → u ∈ s.elsewhere ∨ outstanding s.core u = false)
    (fun hu => .inl hu) (fun hu => hnew _ (hcall (s.accept urb) _ hu))
    (fun hu => hnew _ (hcall ((s.accept urb).setAddress urb) _ hu))
    (fun hu => hnew _ (hsend ((s.accept urb).setUdev urb) _ hu))
    (fun hu => hnew _ (hsend (s.accept urb) _ hu)) linkRet

/-- A URB comes to the queues, the cleanup or a calling context only by being submitted. -/
theorem Port.mem_elsewhere_step (hinv : PortInv s) (hs : s.step a = some s') {u : ℕ}
    (hu : u ∈ s'.elsewhere) : u ∈ s.elsewhere ∨ outstanding s.core u = false := by
  cases moves_of_step hs with
  | enqueue hout linkRet alloc => exact mem_elsewhere_vhciUrbEnqueue hout linkRet alloc hu
  | dequeueGone | dequeueRefused | retUnlinkUnknown | dequeueFailed | dequeueLinked | submitsDone
  | submitSent | submitUnsent | unlinksDone | unlinkTaken | unlinkSent | unlinkUnsent | txStop
  | txWake | retSubmitUnknown | payload | payloadFailed | pickupNone | rxGiveback | rxStop =>
    exact .inl hu
  | @dequeueClosed urb id hid hsocket alloc =>
    obtain ⟨p, hp, -, rfl⟩ := hinv.linked.live _ _ hid
    refine .inl ?_
    simp only [dequeueClosed, elsewhere, privs, ← List.filter_append, List.mem_append,
      List.mem_singleton] at hu
    obtain hu | hu | hu | rfl := hu
    · refine List.mem_append_left _ ?_
      obtain ⟨q, hq, rfl⟩ := List.mem_map.mp hu
      exact List.mem_map.mpr ⟨q, (List.mem_filter.mp hq).1, rfl⟩
    · exact List.mem_append_right _ (List.mem_append_left _ hu)
    · exact List.mem_append_right _ (List.mem_append_right _ hu)
    · exact List.mem_append_left _ (List.mem_map_of_mem hp)
  | callerGiveback hmem =>
    exact .inl (mem_elsewhere_mono hu (List.Subset.refl _) rfl List.erase_subset)
  | @submitTaken p rest htx hp =>
    refine .inl (mem_elsewhere_mono hu (fun q hq => ?_) rfl (List.Subset.refl _))
    simp only [privs, hp, List.mem_append, List.mem_cons, List.not_mem_nil, or_false] at hq ⊢
    tauto
  | retSubmit hrx hpick | pickup hrx hpick =>
    obtain ⟨l₁, p, l₂, hl, rfl, rfl⟩ := pickupUrbAndFreePriv_eq_some hpick
    refine .inl (mem_elsewhere_mono hu (fun q hq => ?_) rfl (List.Subset.refl _))
    simp only [privs, hl, setStatus, List.mem_append, List.mem_cons] at hq ⊢
    tauto
  | retUnlink hrx hun =>
    obtain ⟨l₁, l₂, -, rfl⟩ := dequeuePendingUnlink_eq_some hun
    exact .inl hu
  | shutdown hshut | releaseSocket hshut =>
    refine .inl ?_
    simpa [elsewhere, hshut, ShutPc.held, privs] using hu
  | cleanup hshut =>
    exact .inl ((unlinkCleanupLoop_elsewhere s.unlinkRx { s with unlinkTx := [] }).1 u hu)
  | cleanupOn hshut => exact .inl ((unlinkCleanupLoop_elsewhere s.unlinkRx s).1 u hu)
  | cleanupGiveback hshut =>
    refine .inl ?_
    simp only [elsewhere, ShutPc.held, givebackUrb, List.nil_append, List.mem_append] at hu ⊢
    exact hu.imp_right .inr

theorem Port.rx_vhciUrbEnqueue (s : Port) (urb : Urb) (linkRet : ℤ) (alloc : Bool) :
    (s.vhciUrbEnqueue urb linkRet alloc).2.rx = s.rx := by
  have hsend : ∀ t : Port, (t.vhciTxUrb urb alloc).rx = t.rx := by
    intro t
    rw [vhciTxUrb]
    split
    · rfl
    split
    · rfl
    · rfl
  exact vhciUrbEnqueue_cases (motive := fun t => t.rx = s.rx) rfl rfl rfl (hsend _) (hsend _)
    linkRet

theorem Port.rx_unlinkCleanupLoop (us : List VhciUnlink) (t : Port) :
    (unlinkCleanupLoop us t).rx = t.rx := by
  refine unlinkCleanupLoop_cases (motive := fun t' => t'.rx = t.rx) rfl
    (fun seqnum urb s₁ rest hp => ?_) us
  obtain ⟨l₁, p, l₂, -, -, rfl⟩ := pickupUrbAndFreePriv_eq_some hp
  rfl

/-- Only the receive thread itself lets go of the URB it has. -/
theorem Port.rx_of_busy {u : ℕ} (hs : s.step a = some s') (hbusy : s.rx.held = [u])
    (hpayload : ∀ ok, a ≠ .rxPayload ok) (hgive : a ≠ .rxGiveback) : s'.rx = s.rx := by
  cases moves_of_step hs with
  | enqueue hout linkRet alloc => exact rx_vhciUrbEnqueue ..
  | cleanup | cleanupOn => exact rx_unlinkCleanupLoop ..
  | retSubmit hrx | retUnlink hrx | pickupNone hrx | pickup hrx | rxStop hrx =>
    simp [hrx, RxPc.held] at hbusy
  | payload | payloadFailed => exact absurd rfl (hpayload _)
  | rxGiveback => exact absurd rfl hgive
  | _ => rfl

/-- The receive thread gets a URB from the queues. -/
theorem Port.mem_rx_step {u : ℕ} (hs : s.step a = some s') (hu : u ∈ s'.rx.held) :
    u ∈ s.rx.held ∨ u ∈ s.elsewhere := by
  cases moves_of_step hs with
  | enqueue hout linkRet alloc => exact .inl (rx_vhciUrbEnqueue s _ linkRet alloc ▸ hu)
  | cleanup | cleanupOn =>
    rw [rx_unlinkCleanupLoop] at hu
    exact .inl hu
  | retSubmit hrx hpick | pickup hrx hpick =>
    obtain ⟨l₁, p, l₂, hl, rfl, rfl⟩ := pickupUrbAndFreePriv_eq_some hpick
    refine .inr (List.mem_append_left _ (List.mem_map.mpr ⟨p, ?_, ?_⟩))
    · simp [privs, hl]
    · exact (List.mem_singleton.mp hu).symm
  | payload hrx => exact .inl (by rw [hrx]; exact hu)
  | retUnlink hrx hun | payloadFailed hrx | pickupNone hrx | rxGiveback hrx | rxStop hrx => cases hu
  | _ => exact .inl hu

/-! ### How far a URB has come -/

/-- What the receive thread knows of a URB that it has taken off. -/
inductive Taken.Stage (s : Receiver) (t : Taken) : Prop
  | reading (hrx : s.port.rx = .retSubmit t.urb) (hnone : t.unlinked = 0 ∧ t.givenBack = 0)
    (hdata : s.urbs t.urb = t.data ∧ s.buffers t.urb = t.buffer)
    (hbody : s.kzalloc = t.kzalloc ∧ s.stream = t.stream)
  | finishing (hrx : s.port.rx = .giveback t.urb) (hnone : t.unlinked = 0 ∧ t.givenBack = 0)
    (hcomplete : t.Complete)
  | lost (hrx : t.urb ∉ s.port.rx.held) (hnone : t.unlinked = 0 ∧ t.givenBack = 0)
    (hbroken : ¬ t.Complete)

/-- A URB that has been taken off is with the receive thread or with nobody, and the core waits for
it; or it has been retired. -/
def Taken.Settles (s : Receiver) (t : Taken) : Prop :=
  t.Stage s ∧ t.again = false ∧ t.urb ∉ s.port.elsewhere ∧ outstanding s.port.core t.urb = true ∨
    t.Retired ∧ t.Complete ∧ (t.again = true ∨ outstanding s.port.core t.urb = false)

structure ReceiverInv (s : Receiver) : Prop where
  port : PortInv s.port
  shut : ShutInv s.port
  taken : ∀ t ∈ s.taken, t.Settles s

namespace ReceiverInv

variable {s s' : Receiver} {t : Taken} {port : Port} {a : Act}

/-- A URB that the core does not wait for is not in anybody's hands. -/
theorem not_held (h : ReceiverInv s) {u : ℕ} (hout : outstanding s.port.core u = false) :
    u ∉ s.port.held := by
  intro hu
  simp [h.port.held_outstanding u hu] at hout

/-- The giveback by the receive thread retires the URB. -/
theorem settles_rxGiveback (hport : s.port.step .rxGiveback = some port)
    (hrx : s.port.rx = .giveback t.urb) (hagain : t.again = false)
    (hnone : t.unlinked = 0 ∧ t.givenBack = 0) (hcomplete : t.Complete) (hs' : s'.port = port) :
    (t.seeAll (coreCalls s.port .rxGiveback port)).Settles s' := by
  have hcalls : coreCalls s.port .rxGiveback port = [.unlinkFromEp t.urb, .giveback t.urb] := by
    simp [coreCalls, hrx, RxPc.held]
  obtain rfl : { s.port.givebackUrb t.urb with rx := .idle } = port := by
    simpa [Port.step, Port.rxGiveback, hrx] using hport
  rw [hcalls, Taken.seeAll_retire hagain]
  refine .inr ⟨⟨?_, ?_⟩, hcomplete, .inr ?_⟩
  · exact congrArg (· + 1) hnone.1
  · exact congrArg (· + 1) hnone.2
  · rw [hs', Port.givebackUrb, outstanding_giveback, if_pos rfl]

/-- A step of the port that is not a read. -/
theorem settles_portStep (h : ReceiverInv s) (ht : t.Settles s)
    (hport : s.port.step a = some port) (hpayload : ∀ ok, a ≠ .rxPayload ok)
    (hs' : s'.port = port)
    (hframe : outstanding s.port.core t.urb = true → s.port.rx = .retSubmit t.urb →
      s'.urbs t.urb = s.urbs t.urb ∧ s'.buffers t.urb = s.buffers t.urb ∧
        s'.kzalloc = s.kzalloc ∧ s'.stream = s.stream) :
    (t.seeAll (coreCalls s.port a port)).Settles s' := by
  obtain ⟨hstage, hagain, helse, hout⟩ | ⟨hret, hcomplete, hlast⟩ := ht
  · -- it has not been given back
    obtain ⟨hnot, -⟩ | hmem | ⟨rfl, hrx⟩ | ⟨hcalls, hsame⟩ := coreCalls_cases h.port hport t.urb
    · simp [hout] at hnot
    · exact absurd hmem helse
    · cases hstage with
      | reading hrx' => simp [hrx] at hrx'
      | finishing hrx' hnone hcomplete =>
        exact settles_rxGiveback hport hrx hagain hnone hcomplete hs'
      | lost hrx' => simp [hrx, RxPc.held] at hrx'
    · rw [Taken.seeAll_of_ne hcalls]
      refine .inl ⟨?_, hagain, ?_, by rw [hs', hsame, hout]⟩
      · cases hstage with
        | reading hrx hnone hdata hbody =>
          obtain ⟨hurbs, hbuffers, hkzalloc, hstream⟩ := hframe hout hrx
          have hgive : a ≠ .rxGiveback := by
            rintro rfl
            simp [Port.step, Port.rxGiveback, hrx] at hport
          refine .reading ?_ hnone ⟨hurbs.trans hdata.1, hbuffers.trans hdata.2⟩
            ⟨hkzalloc.trans hbody.1, hstream.trans hbody.2⟩
          rw [hs', Port.rx_of_busy hport (by rw [hrx]; rfl) hpayload hgive, hrx]
        | finishing hrx hnone hcomplete =>
          have hgive : a ≠ .rxGiveback := by
            rintro rfl
            refine hcalls (.giveback t.urb) ?_ rfl
            simp [coreCalls, hrx, RxPc.held]
          refine .finishing ?_ hnone hcomplete
          rw [hs', Port.rx_of_busy hport (by rw [hrx]; rfl) hpayload hgive, hrx]
        | lost hrx hnone hbroken =>
          refine .lost (fun hmem => ?_) hnone hbroken
          rw [hs'] at hmem
          exact (Port.mem_rx_step hport hmem).elim hrx helse
      · rw [hs']
        intro hmem
        obtain hmem | hnot := Port.mem_elsewhere_step h.port hport hmem
        · exact helse hmem
        · simp [hout] at hnot
  · -- it has been given back, and the next call about it submits it again
    by_cases hagain : t.again = true
    · rw [Taken.seeAll_of_again hagain]
      exact .inr ⟨hret, hcomplete, .inl hagain⟩
    have hout := hlast.resolve_left hagain
    obtain ⟨-, rest, hcalls⟩ | hmem | ⟨rfl, hrx⟩ | ⟨hcalls, hsame⟩ :=
      coreCalls_cases h.port hport t.urb
    · rw [hcalls, Taken.seeAll_enqueue]
      exact .inr ⟨hret, hcomplete, .inl rfl⟩
    · exact absurd (Port.mem_held_of_elsewhere hmem) (h.not_held hout)
    · refine absurd ?_ (h.not_held hout)
      simp [Port.held, Port.retiring, hrx, RxPc.held]
    · rw [Taken.seeAll_of_ne hcalls]
      exact .inr ⟨hret, hcomplete, .inr (by rw [hs', hsame, hout])⟩

/-- A URB that the receive thread has is nowhere else. -/
theorem not_elsewhere {p : Port} (h : PortInv p) {u : ℕ} (hu : u ∈ p.rx.held) :
    u ∉ p.elsewhere := by
  have hperm : p.held.Perm (p.rx.held ++ p.elsewhere) := by
    rw [Port.held, Port.retiring, Port.elsewhere, List.append_assoc]
    exact List.perm_append_comm_assoc ..
  intro hmem
  exact (List.nodup_append.mp (hperm.nodup_iff.mp h.held_nodup)).2.2 u hu u hmem rfl

/-- `vhci_recv_ret_submit` takes a request off `priv_rx`. -/
theorem settles_take (hinv : PortInv s.port) {urb : ℕ} (hrx : s.port.rx = .retSubmit urb)
    (rpdu : Wire.UsbipHeaderRetSubmit) (kzalloc : Wire.Allocator) (stream : List Byte) :
    Taken.Settles (s.take urb rpdu kzalloc stream)
      ⟨urb, s.buffers urb, Wire.unpackRetSubmit rpdu (s.urbs urb), kzalloc, stream, 0, 0,
        false⟩ := by
  have hheld : urb ∈ s.port.rx.held := by
    rw [hrx]
    exact List.mem_singleton_self urb
  refine .inl ⟨.reading hrx ⟨rfl, rfl⟩ ⟨Function.update_self .., rfl⟩ ⟨rfl, rfl⟩, rfl,
    not_elsewhere hinv hheld, hinv.held_outstanding urb ?_⟩
  exact List.mem_append_right _ (List.mem_append_left _ (List.mem_append_left _ hheld))

/-- The reads decide whether the URB will be given back. -/
theorem settles_payload (ht : t.Settles s) {urb : ℕ} (hrx : s.port.rx = .retSubmit urb)
    (hport : s.port.step (.rxPayload (s.read urb).isSome) = some port) (hs' : s'.port = port) :
    (t.seeAll (coreCalls s.port (.rxPayload (s.read urb).isSome) port)).Settles s' := by
  have hcalls : coreCalls s.port (.rxPayload (s.read urb).isSome) port = [] := rfl
  have hstep : port = if (s.read urb).isSome then { s.port with rx := .giveback urb }
      else { s.port with event := true, rx := .idle } := by
    simp only [Port.step, Port.recvPayload, hrx] at hport
    split at hport
    next hok => rw [if_pos hok]; exact (Option.some.inj hport).symm
    next hok => rw [if_neg hok]; exact (Option.some.inj hport).symm
  have hcore : port.core = s.port.core ∧ port.elsewhere = s.port.elsewhere := by
    rw [hstep]
    split
    · exact ⟨rfl, rfl⟩
    · exact ⟨rfl, rfl⟩
  rw [hcalls]
  obtain ⟨hstage, hagain, helse, hout⟩ | ⟨hret, hcomplete, hlast⟩ := ht
  on_goal 1 => refine .inl ⟨?_, hagain, ?_, ?_⟩
  on_goal 4 => refine .inr ⟨hret, hcomplete, ?_⟩
  · cases hstage with
    | reading hrx' hnone hdata hbody =>
      obtain rfl : urb = t.urb := by simpa [hrx] using hrx'
      have hread : (s.read t.urb).isSome ↔ t.Complete := by
        rw [Receiver.read, hdata.1, hdata.2, hbody.1, hbody.2]
        exact recvRetBody_isSome_iff
      split at hstep
      next hok =>
        refine .finishing ?_ hnone (hread.mp hok)
        rw [hs', hstep]
        rfl
      next hok =>
        refine .lost ?_ hnone fun hcomplete => hok (hread.mpr hcomplete)
        rw [hs', hstep]
        exact List.not_mem_nil
    | finishing hrx' => simp [hrx] at hrx'
    | lost hrx' hnone hbroken =>
      refine .lost ?_ hnone hbroken
      rw [hs', hstep]
      rw [hrx] at hrx'
      split
      · exact hrx'
      · exact List.not_mem_nil
  · rw [hs', hcore.2]
    exact helse
  · rw [hs', hcore.1]
    exact hout
  · rw [hs', hcore.1]
    exact hlast

theorem step (h : ReceiverInv s) {a : RxAct} (hs : s.step a = some s') : ReceiverInv s' := by
  cases a with
  | enqueue urb data buffer linkRet alloc =>
    obtain ⟨s₁, hs₁, rfl⟩ := Option.map_eq_some_iff.mp hs
    obtain ⟨port, hport, rfl⟩ := Option.map_eq_some_iff.mp hs₁
    refine ⟨h.port.step hport, h.shut.step hport, fun t' ht' => ?_⟩
    obtain ⟨t, ht, rfl⟩ := List.mem_map.mp ht'
    refine h.settles_portStep (h.taken t ht) hport (by simp) rfl fun hout _ => ?_
    have hne : t.urb ≠ urb.id := by
      rintro heq
      have hnot := (Option.ite_none_left_eq_some.mp hport).1
      exact hnot (heq ▸ hout)
    exact ⟨Function.update_of_ne hne .., Function.update_of_ne hne .., rfl, rfl⟩
  | retSubmit seqnum rpdu kzalloc stream =>
    obtain ⟨s₁, hs₁, hs⟩ := Option.map_eq_some_iff.mp hs
    obtain ⟨port, hport, rfl⟩ := Option.map_eq_some_iff.mp hs₁
    have hidle : s.port.rx = .idle := not_not.mp (Option.ite_none_left_eq_some.mp hport).1
    have hinv := h.port.step hport
    have hold : ∀ t' ∈ s.taken.map (Taken.seeAll (coreCalls s.port
        (.rxRetSubmit seqnum rpdu.status.toInt) port)), ∀ s'' : Receiver, s''.port = port →
        t'.Settles s'' := by
      intro t' ht' s'' hs''
      obtain ⟨t, ht, rfl⟩ := List.mem_map.mp ht'
      refine h.settles_portStep (h.taken t ht) hport (by simp) hs'' fun _ hrx => ?_
      simp [hidle] at hrx
    dsimp only at hs
    split at hs
    next urb hrx =>
      subst hs
      refine ⟨hinv, h.shut.step hport, fun t ht => ?_⟩
      obtain ht | ht := List.mem_append.mp ht
      · exact hold t ht _ rfl
      · obtain rfl := List.mem_singleton.mp ht
        exact settles_take hinv hrx rpdu kzalloc stream
    next =>
      subst hs
      exact ⟨hinv, h.shut.step hport, fun t ht => hold t ht _ rfl⟩
  | payload =>
    simp only [Receiver.step] at hs
    split at hs
    next urb hrx =>
      obtain ⟨s₁, hs₁, rfl⟩ := Option.map_eq_some_iff.mp hs
      obtain ⟨port, hport, rfl⟩ := Option.map_eq_some_iff.mp hs₁
      refine ⟨h.port.step hport, h.shut.step hport, fun t' ht' => ?_⟩
      obtain ⟨t, ht, rfl⟩ := List.mem_map.mp ht'
      exact settles_payload (h.taken t ht) hrx hport rfl
    · cases hs
  | port a =>
    obtain ⟨hown, hs⟩ := Option.ite_none_left_eq_some.mp hs
    obtain ⟨port, hport, rfl⟩ := Option.map_eq_some_iff.mp hs
    refine ⟨h.port.step hport, h.shut.step hport, fun t' ht' => ?_⟩
    obtain ⟨t, ht, rfl⟩ := List.mem_map.mp ht'
    refine h.settles_portStep (h.taken t ht) hport ?_ rfl fun _ _ => ⟨rfl, rfl, rfl, rfl⟩
    rintro ok rfl
    exact hown rfl

theorem of_reachable {seqnum : BitVec 32} {udev : Option ℕ} {urb : Wire.Urb}
    {kzalloc : Wire.Allocator} (h : (receiver seqnum udev urb kzalloc).Reachable s) :
    ReceiverInv s :=
  h.invariant ⟨.of_reachable .init, .of_reachable .init, fun _ ht => absurd ht List.not_mem_nil⟩
    fun _ _ _ hs _ hstep => hs.step hstep

end ReceiverInv

/-- There is no memory for packet descriptors. -/
def noMemory : Wire.Allocator := ⟨fun _ => false, fun _ h => absurd h (by decide)⟩

/-- A bulk URB of four bytes to endpoint 1 IN. -/
def bulkIn : Wire.Urb where
  pipe := ⟨.bulk, true, 1⟩
  transferFlags := 0
  transferBufferLength := 4
  startFrame := 0
  numberOfPackets := 0
  interval := 0
  status := 0
  actualLength := 0
  errorCount := 0
  setupPacket := none
  transferBuffer := fun _ => 0
  isoFrameDesc := fun _ => ⟨0, 0, 0, 0⟩

end Usbip.Vhci
