import Usbip.Ptp.Locks

/-!
# What the functions of the filter do next

`Call.body` computes what a function leaves its chain to do. Which lists of lock operations and
calls these are is said here once (`Does`, `body_does`), so that what follows about the locks goes
through the lists and not through the functions. Where it matters for a lock which list it is, the
condition stands beside it: a change of the session in `ptp_parse` (`Shared.changesSession`), a
container that `ptp_consume_` does not understand (`Shared.badContainer`), and the two places where
a URB of the client is completed (`Shared.answersCommand`, `Shared.fillsUrb`).
-/

namespace Usbip.Ptp

open CallChain RecordRing

/-! ### Containers that change the session -/

/-- The headers after a container, given those of the next pass. -/
def headersPhase (next : StateMachine → List Byte → List BulkHeader) (m : StateMachine)
    (data : List Byte) : List BulkHeader :=
  if (data.length + m.size) % 2 ^ 32 < m.ptpdu.length then []
  else
    let offset := (m.ptpdu.length + 2 ^ 32 - m.size) % 2 ^ 32
    if data.length < offset then []
    else
      next { m with state := if m.state = .response then .none else .waitResponse }
        (data.drop offset)

/-- The headers that a parser comes to in the data, in at most `n` passes. -/
def headersLoop : ℕ → StateMachine → List Byte → List BulkHeader
  | _, _, [] => []
  | 0, _, _ => []
  | n + 1, m, data =>
    if m.state = .waitResponse ∨ m.state = .none then
      if data.length < bulkHeaderSize then []
      else
        let ptpdu := readHeader data
        ptpdu :: match phaseOf ptpdu.type with
          | none => []
          | some state =>
            headersPhase (headersLoop n) ⟨state, bulkHeaderSize, ptpdu⟩ (data.drop bulkHeaderSize)
    else headersPhase (headersLoop n) m data

/-- The headers of the containers that begin in the data, for a parser that has come this far. -/
def headers (m : StateMachine) (data : List Byte) : List BulkHeader :=
  headersLoop (2 * data.length) m data

/-- The lock operations of a call of `ptp_parse`: those of its session changes, and those of
`ptp_bypass1` if it gives up. -/
structure ParseOps (which : Parser) (hs : List BulkHeader) (ops : List FilterOp) : Prop where
  eq : ops = hs.flatMap (newSession which) ∨ ops = hs.flatMap (newSession which) ++ bypass1

theorem ParseOps.nil {which : Parser} : ParseOps which [] [] := ⟨.inl rfl⟩

theorem lockPhase_ops {which : Parser} {serving : Bool}
    {next : StateMachine → List Byte → List BulkHeader}
    {lockNext : StateMachine → Session → Bool → List Byte → Option Parsed × List FilterOp}
    (h : ∀ m s done data, ParseOps which (next m data) (lockNext m s done data).2)
    (m : StateMachine) (s : Session) (done : Bool) (data : List Byte) :
    ParseOps which (headersPhase next m data)
      (lockPhase which serving lockNext m s done data).2 := by
  simp only [lockPhase, headersPhase]
  split_ifs
  · exact .nil
  · exact .nil
  · exact h _ _ _ _
  · exact h _ _ _ _

theorem lockLoop_ops (which : Parser) (serving : Bool) (n : ℕ) (m : StateMachine) (s : Session)
    (done : Bool) (data : List Byte) :
    ParseOps which (headersLoop n m data) (lockLoop which serving n m s done data).2 := by
  induction n generalizing m s done data with
  | zero => cases data <;> exact .nil
  | succ n ih =>
    have hphase := @lockPhase_ops which serving _ _ ih
    cases data with
    | nil => exact .nil
    | cons b data =>
      rw [lockLoop, headersLoop]
      · split
        · split
          · exact ⟨.inr rfl⟩
          cases hstate : phaseOf (readHeader (b :: data)).type with
          | none =>
            refine ⟨.inr ?_⟩
            simp only [hstate, List.flatMap_cons, List.flatMap_nil, List.append_nil]
          | some state =>
            obtain ⟨hops⟩ := hphase ⟨state, bulkHeaderSize, readHeader (b :: data)⟩
              ((s.checkNewSession which (readHeader (b :: data))).rewriteTransId which
                ((b :: data).take bulkHeaderSize)).1 done ((b :: data).drop bulkHeaderSize)
            simp only [hstate]
            constructor
            rcases hops with hops | hops
            · exact .inl (by simp only [hops, List.flatMap_cons])
            · exact .inr (by simp only [hops, List.flatMap_cons, List.append_assoc])
        · exact hphase m s done (b :: data)
      all_goals simp

theorem lockParse_ops (which : Parser) (serving : Bool) (m : StateMachine) (s : Session)
    (data : List Byte) :
    ParseOps which (headers m data) (lockParse which serving m s data).2 :=
  lockLoop_ops which serving _ m s false data

/-- A parser other than `rx` never changes the session. -/
theorem newSession_of_ne {which : Parser} (h : which ≠ .rx) (ptpdu : BulkHeader) :
    newSession which ptpdu = [] := by
  simp [newSession, h]

/-- Without a change of the session the lock is taken for `ptp_bypass1` at most. -/
theorem ParseOps.quiet {which : Parser} {hs : List BulkHeader} {ops : List FilterOp}
    (h : ParseOps which hs ops) (hs' : ∀ p ∈ hs, newSession which p = []) :
    ops = [] ∨ ops = bypass1 := by
  have hnil : hs.flatMap (newSession which) = [] := List.flatMap_eq_nil_iff.mpr hs'
  rcases h.eq with heq | heq
  · exact .inl (heq.trans hnil)
  · exact .inr (by rw [heq, hnil, List.nil_append])

/-- `ptp_parse` calls nothing, and its lock operations are on `filter->lock`. -/
theorem ParseOps.mem {which : Parser} {hs : List BulkHeader} {ops : List FilterOp}
    (h : ParseOps which hs ops) : ∀ op ∈ ops, op = .acquire .lock ∨ op = .release .lock := by
  have hsession : ∀ op ∈ hs.flatMap (newSession which),
      op = .acquire .lock ∨ op = .release .lock := by
    intro op hop
    obtain ⟨ptpdu, -, hop⟩ := List.mem_flatMap.mp hop
    unfold newSession at hop
    split at hop
    · exact .inl (List.mem_singleton.mp hop)
    · cases hop
  have hbypass : ∀ op ∈ bypass1, op = .acquire .lock ∨ op = .release .lock := by simp [bypass1]
  intro op hop
  rcases h.eq with rfl | rfl
  · exact hsession op hop
  · exact (List.mem_append.mp hop).elim (hsession op) (hbypass op)

/-! ### Conditions on the next step -/

/-- `ptp_parse` comes to a command that opens or closes a session. -/
def Shared.changesSession (x : Shared) (urb : Urb) : Bool :=
  decide (x.filter.state ≠ .bypassed) && urb.bulk && urb.pipeOut &&
    (headers (x.parsers .rx) urb.data).any BulkHeader.changesSession

/-- The next pass of `ptp_consume_` begins a container for a URB that has some data already, or a
container that is shorter than its header. -/
def Shared.badContainer (x : Shared) (priv : Option ℕ) : Bool :=
  decide x.filter.state.Filtering &&
    (priv.or x.filter.clientQueue.head?).any fun u =>
      decide (x.filter.frameLength = 0) &&
        !decide (x.filter.frameTail ≠ x.filter.frameRxTail2 ∧
          x.filter.frameTail = x.filter.frameRxTail ∧ x.filter.state = .drop) &&
        !decide (u32 x.filter.toEndCount < bulkHeaderSize) &&
        (decide ((x.copied u).length ≠ 0) ||
          decide (containerLength x.filter.header < bulkHeaderSize))

theorem newSession_eq_nil {ptpdu : BulkHeader} (h : ptpdu.changesSession = false)
    (which : Parser) : newSession which ptpdu = [] := by
  simp [newSession, h]

/-- What `beginContainer` gives up on. -/
theorem beginContainer_bypass {f f' : Filter} {actual : ℕ}
    (h : f.beginContainer actual = .bypass f') :
    f.frameLength = 0 ∧
      ¬ (f.frameTail ≠ f.frameRxTail2 ∧ f.frameTail = f.frameRxTail ∧ f.state = .drop) ∧
      ¬ u32 f.toEndCount < bulkHeaderSize ∧
      (actual ≠ 0 ∨ containerLength f.header < bulkHeaderSize) := by
  unfold Filter.beginContainer at h
  split_ifs at h with hlen hmark hend hactual hshort
  · exact ⟨not_not.mp hlen, hmark, hend, .inl hactual⟩
  · exact ⟨not_not.mp hlen, hmark, hend, .inr hshort⟩

/-- What is left to serve of the container at `frame_tail`. -/
def Filter.containerLeft (f : Filter) : ℕ :=
  if f.frameLength = 0 then containerLength f.header else f.frameLength

/-- `ptp_consume_` has a container to serve to a URB that has got `actual` bytes. -/
def Filter.hasContainer (f : Filter) (actual : ℕ) : Bool :=
  decide (f.frameLength ≠ 0) ||
    (!decide (f.frameTail ≠ f.frameRxTail2 ∧ f.frameTail = f.frameRxTail ∧ f.state = .drop) &&
      !decide (u32 f.toEndCount < bulkHeaderSize) && decide (actual = 0) &&
      decide (bulkHeaderSize ≤ containerLength f.header))

/-- The next pass of `ptp_consume_` fills a URB, or serves the rest of a container to it. -/
def Shared.fillsUrb (x : Shared) (priv : Option ℕ) : Bool :=
  decide x.filter.state.Filtering &&
    (priv.or x.filter.clientQueue.head?).any fun u =>
      let room := x.size u - (x.copied u).length
      let n := min (u32 (min (room : ℤ) x.filter.toEndCount)).toNat x.filter.containerLeft
      x.filter.hasContainer (x.copied u).length && decide (n ≠ 0) &&
        (decide (n = x.filter.containerLeft) || decide ((x.copied u).length + n = x.size u))

/-- The filter answers this command itself. -/
def Shared.answersCommand (x : Shared) (urb : Urb) : Bool :=
  decide (x.ptpFilter.checkPreview urb.data = some true) && decide x.TakesPreview

/-- The container that a pass serves. -/
theorem beginContainer_go {f f' : Filter} {actual : ℕ} (h : f.beginContainer actual = .go f') :
    f'.frameLength = f.containerLeft ∧ f'.toEndCount = f.toEndCount ∧
      f.hasContainer actual = true := by
  unfold Filter.beginContainer at h
  split_ifs at h with hlen hmark hend hactual hshort
  · cases h
    refine ⟨?_, rfl, ?_⟩
    · rw [Filter.containerLeft, if_neg hlen]
    · simp [Filter.hasContainer, hlen]
  · -- a container begins
    cases h
    have hlen : f.frameLength = 0 := not_not.mp hlen
    have hclear : f.clearMark.header = f.header ∧ f.clearMark.toEndCount = f.toEndCount := by
      unfold Filter.clearMark
      split_ifs <;> exact ⟨rfl, rfl⟩
    refine ⟨?_, hclear.2, ?_⟩
    · rw [Filter.containerLeft, if_pos hlen, ← hclear.1]
      rfl
    · simp only [Filter.hasContainer, hlen, hmark, hend, ne_eq, not_true, decide_false,
        Bool.not_false, Bool.true_and, Bool.false_or, Bool.and_eq_true, decide_eq_true_eq]
      exact ⟨not_not.mp hactual, Nat.le_of_not_lt hshort⟩

/-- Where there is a container a pass serves it. -/
theorem exists_go {f : Filter} {actual : ℕ} (h : f.hasContainer actual = true) :
    ∃ f', f.beginContainer actual = .go f' := by
  unfold Filter.beginContainer
  by_cases hlen : f.frameLength ≠ 0
  · exact ⟨f, if_pos hlen⟩
  · rw [if_neg hlen]
    simp only [Filter.hasContainer, hlen, decide_false, Bool.false_or, Bool.and_eq_true,
      Bool.not_eq_true', decide_eq_true_eq, decide_eq_false_iff_not] at h
    obtain ⟨⟨⟨hmark, hend⟩, hactual⟩, hshort⟩ := h
    rw [if_neg hmark, if_neg hend, if_neg (not_not.mpr hactual), if_neg (Nat.not_lt.mpr hshort)]
    exact ⟨_, rfl⟩

/-! ### The lists -/

/-- The lock operations of a call of `ptp_parse`, which may change the session or not. -/
structure ParserOps (changes : Bool) (ops : List FilterOp) : Prop where
  locks : ∀ op ∈ ops, op = .acquire .lock ∨ op = .release .lock
  quiet : changes = false → ops = [] ∨ ops = bypass1

/-- The functions that call `ptp_parse` for what the camera sends, or is sent by the filter. -/
def Call.parses : Call → Bool
  | .ptpOnTx _ | .ptpDataComplete _ _ _ _ | .parseSend => true
  | _ => false

/-- The functions that may return with nothing more to do. -/
def Call.returns : Call → Bool
  | .ptpOnRx _ | .onRxParsed _ | .ptpOnTx _ | .onTxParsed _ _ | .timerLocked | .dataFailed
  | .changeState _ | .produce _ | .stubSubmitUrb | .consume _ _ | .completed => true
  | _ => false

/-- The functions that may release `filter->lock` and return. -/
def Call.unlocks : Call → Bool
  | .onRxIn _ | .onRxCommand _ | .cmdCompleteLocked _ | .dataCompleteLocked _ _ => true
  | _ => false

/-- The functions that may call `ptp_change_state` and return. -/
def Call.changesState : Call → Bool
  | .startStream _ | .ptpOnTx _ | .ptpRemove => true
  | _ => false

/-- What a function leaves its chain to do. -/
inductive Does (x : Shared) : Call → List FilterOp → Prop
  | returns {t : Call} (h : t.returns = true) : Does x t []
  | unlocks {t : Call} (h : t.unlocks = true) : Does x t [.release .lock]
  | changesState {t : Call} (h : t.changesState = true) (state : FilterState) :
    Does x t (Shared.changeStateOps state)
  | usbipFilterOnRx (urb : Urb) :
    Does x (.usbipFilterOnRx urb)
      [.acquire .filterLock, .call (.ptpOnRx urb), .release .filterLock]
  | usbipFilterOnTx (urb : Urb) :
    Does x (.usbipFilterOnTx urb)
      [.acquire .filterLock, .call (.ptpOnTx urb), .release .filterLock]
  | ptpOnRxIn (urb : Urb) :
    Does x (.ptpOnRx urb) [.acquire .lock, .call (.onRxIn urb.id)]
  | ptpOnRxOutside (urb : Urb) {ops : List FilterOp}
    (h : ParserOps (x.changesSession urb) ops) :
    Does x (.ptpOnRx urb) (ops ++ [.call .fault])
  | ptpOnRxParsed (urb urb' : Urb) {ops : List FilterOp}
    (h : ParserOps (x.changesSession urb) ops) :
    Does x (.ptpOnRx urb) (ops ++ [.call (.onRxParsed urb')])
  | onRxInServed (id : ℕ) :
    Does x (.onRxIn id) [.call (.consume (some id) false), .release .lock]
  | onRxInQueued (id : ℕ) :
    Does x (.onRxIn id) [.call (.produce (some .clientIn)), .release .lock]
  | onRxParsed (urb : Urb) :
    Does x (.onRxParsed urb) [.acquire .lock, .call (.onRxCommand urb)]
  | onRxCommandOutside (urb : Urb) : Does x (.onRxCommand urb) [.call .fault]
  | onRxCommandAnswered (urb : Urb) (h : x.answersCommand urb = true) :
    Does x (.onRxCommand urb) [.release .lock, .call (.completeUrb { urb with ok := true })]
  | onRxCommandStarted (urb : Urb) (h : x.answersCommand urb = true) :
    Does x (.onRxCommand urb) [.release .lock, .call (.completeUrb { urb with ok := true }),
      .call (.startStream urb)]
  | startStream (urb : Urb) : Does x (.startStream urb) [.call .ptpTimer]
  | outside {t : Call} (ht : t.parses = true) {ops : List FilterOp} (h : ParserOps false ops) :
    Does x t (ops ++ [.call .fault])
  | ptpOnTxParsed (urb : Urb) (done : Bool) {ops : List FilterOp} (h : ParserOps false ops) :
    Does x (.ptpOnTx urb) (ops ++ [.call (.onTxParsed urb done)])
  | onTxParsed (urb : Urb) (done : Bool) :
    Does x (.onTxParsed urb done) [.acquire .lock, .call (.produce none), .release .lock]
  | onTxParsedChanged (urb : Urb) (done : Bool) (state : FilterState) :
    Does x (.onTxParsed urb done) [.acquire .lock, .call (.changeState state), .release .lock,
      .acquire .lock, .call (.produce none), .release .lock]
  | ptpTimer : Does x .ptpTimer [.acquire .lock, .call .timerLocked, .release .lock]
  | timerLocked : Does x .timerLocked [.call (.produce (some .selfCmd))]
  | ptpCmdComplete (i : ℕ) (ok : Bool) :
    Does x (.ptpCmdComplete i ok) [.acquire .lock, .call (.cmdCompleteLocked ok)]
  | cmdCompleteLocked (ok : Bool) :
    Does x (.cmdCompleteLocked ok) [.release .lock, .call .stubSubmitUrb]
  | ptpDataCompleteFailed (i : ℕ) (offset : ℤ) (data : List Byte) (ok : Bool) :
    Does x (.ptpDataComplete i offset data ok)
      [.acquire .lock, .call .dataFailed, .release .lock]
  | ptpDataCompleteParsed (i : ℕ) (offset : ℤ) (data : List Byte) (ok : Bool)
    {ops : List FilterOp} (h : ParserOps false ops) :
    Does x (.ptpDataComplete i offset data ok)
      (ops ++ [.acquire .lock, .call (.dataCompleteLocked offset data)])
  | dataCompleteLocked (offset : ℤ) (data : List Byte) (priv : Option Request) :
    Does x (.dataCompleteLocked offset data)
      [.call (.produce priv), .call (.consume none false), .release .lock]
  | produceOut (priv : Option Request) :
    Does x (.produce priv)
      [.release .lock, .call .parseSend, .call .stubSubmitUrb, .acquire .lock]
  | produceIn (priv : Option Request) :
    Does x (.produce priv) [.release .lock, .call .stubSubmitUrb, .acquire .lock]
  | parseSend {ops : List FilterOp} (h : ParserOps false ops) : Does x .parseSend ops
  | consumeBypassed {priv : Option ℕ} (h : x.badContainer priv = true) (pending : Bool) :
    Does x (.consume priv pending) [.release .lock]
  | consumeFilled {priv : Option ℕ} (h : x.fillsUrb priv = true) (pending pending' : Bool)
    (urb : Urb) :
    Does x (.consume priv pending)
      [.release .lock, .call (.completeUrb urb), .acquire .lock, .call (.produce none),
        .call (.consume none pending')]
  | consumeMore (priv : Option ℕ) (pending pending' : Bool) (u : ℕ) :
    Does x (.consume priv pending) [.call (.produce none), .call (.consume (some u) pending')]
  | completeUrb (urb : Urb) :
    Does x (.completeUrb urb) [.call (.stubComplete urb), .call .completed]
  | stubComplete (urb : Urb) : Does x (.stubComplete urb) [.call (.usbipFilterOnTx urb)]

namespace Shared

variable (x : Shared)

theorem parserOps (which : Parser) (serving : Bool) (data : List Byte) {changes : Bool}
    (hquiet : changes = false →
      ∀ p ∈ headers (x.parsers which) data, newSession which p = []) :
    ParserOps changes (lockParse which serving (x.parsers which) x.session data).2 := by
  have hops := lockParse_ops which serving (x.parsers which) x.session data
  exact ⟨hops.mem, fun h => hops.quiet (hquiet h)⟩

/-- A call of `ptp_parse` comes to its end or reads outside of the buffer. -/
theorem parsed_snd (which : Parser) (serving : Bool) (data : List Byte)
    (next : Parsed → List FilterOp) :
    (x.parsed which serving data next).2 =
        (lockParse which serving (x.parsers which) x.session data).2 ++ [.call .fault] ∨
      ∃ p, (x.parsed which serving data next).2 =
        (lockParse which serving (x.parsers which) x.session data).2 ++ next p := by
  unfold parsed
  dsimp only
  split
  · exact .inl rfl
  · exact .inr ⟨_, rfl⟩

theorem ptpOnRx_does (urb : Urb) : Does x (.ptpOnRx urb) (x.ptpOnRx urb).2 := by
  unfold ptpOnRx
  split_ifs with hpass hout
  · exact .returns rfl
  · have hops : ParserOps (x.changesSession urb)
        (lockParse .rx false (x.parsers .rx) x.session urb.data).2 := by
      refine x.parserOps _ false _ fun h p hp => newSession_eq_nil ?_ .rx
      obtain ⟨hstate, hbulk⟩ := not_or.mp hpass
      have hbulk : urb.bulk = true := by simpa using hbulk
      have hany : (headers (x.parsers .rx) urb.data).any BulkHeader.changesSession = false := by
        simpa [changesSession, hstate, hbulk, hout] using h
      simpa using List.any_eq_false.mp hany p hp
    rcases x.parsed_snd .rx false urb.data
      fun p => [.call (.onRxParsed { urb with data := p.data })] with h | ⟨p, h⟩
    · rw [h]
      exact .ptpOnRxOutside urb hops
    · rw [h]
      exact .ptpOnRxParsed urb _ hops
  · exact .ptpOnRxIn urb

theorem onRxIn_does (id : ℕ) : Does x (.onRxIn id) (x.onRxIn id).2 := by
  unfold onRxIn
  split_ifs
  · exact .onRxInServed id
  · exact .onRxInQueued id
  · exact .unlocks rfl

theorem onRxParsed_does (urb : Urb) : Does x (.onRxParsed urb) (x.onRxParsed urb).2 := by
  unfold onRxParsed
  split_ifs
  · exact .returns rfl
  · exact .onRxParsed urb

theorem onRxCommand_does (urb : Urb) (early : Bool) :
    Does x (.onRxCommand urb) (x.onRxCommand urb early).2 := by
  unfold onRxCommand
  split
  · exact .onRxCommandOutside urb
  next hpreview =>
    unfold previewOps
    split_ifs with htakes
    · exact .onRxCommandStarted urb (by simp [answersCommand, hpreview, htakes])
    · exact .onRxCommandAnswered urb (by simp [answersCommand, hpreview, htakes])
    · exact .unlocks rfl
  · exact .unlocks rfl

theorem startStream_does (urb : Urb) (allocs : ℕ) :
    Does x (.startStream urb) (x.startStream urb allocs).2 := by
  unfold startStream
  dsimp only
  split_ifs
  · exact .startStream urb
  · exact .changesState rfl _
  · exact .changesState rfl _
  · exact .changesState rfl _
  · exact .startStream urb

theorem ptpOnTx_does (urb : Urb) : Does x (.ptpOnTx urb) (x.ptpOnTx urb).2 := by
  unfold ptpOnTx
  split_ifs
  · exact .returns rfl
  · exact .changesState rfl _
  · have hops : ParserOps false (lockParse .tx (x.servingUrb == some urb.id) (x.parsers .tx)
        x.session urb.data).2 :=
      x.parserOps _ _ _ fun _ p _ => newSession_of_ne (by decide) p
    rcases x.parsed_snd .tx (x.servingUrb == some urb.id) urb.data
      fun p => [.call (.onTxParsed urb p.done)] with h | ⟨p, h⟩
    · rw [h]
      exact .outside rfl hops
    · rw [h]
      exact .ptpOnTxParsed urb p.done hops

theorem onTxParsed_does (urb : Urb) (done : Bool) :
    Does x (.onTxParsed urb done) (x.onTxParsed urb done).2 := by
  unfold onTxParsed
  split_ifs
  · exact .returns rfl
  · exact .onTxParsedChanged urb done _
  · exact .onTxParsed urb done

theorem timerLocked_does : Does x .timerLocked x.timerLocked.2 := by
  unfold timerLocked
  split_ifs
  · exact .returns rfl
  · split
    · exact .returns rfl
    · exact .timerLocked

theorem cmdCompleteLocked_does (cfg : Config) (ok : Bool) :
    Does x (.cmdCompleteLocked ok) (x.cmdCompleteLocked cfg ok).2 := by
  unfold cmdCompleteLocked
  dsimp only
  split_ifs
  · exact .unlocks rfl
  · exact .cmdCompleteLocked ok

theorem ptpDataComplete_does (i : ℕ) (offset : ℤ) (data : List Byte) (ok : Bool) :
    Does x (.ptpDataComplete i offset data ok) (x.ptpDataComplete i offset data ok).2 := by
  unfold ptpDataComplete
  dsimp only
  split_ifs
  · exact .ptpDataCompleteFailed i offset data ok
  · have hops := (x.setFilter ((x.filter.complete i).written offset data)).parserOps
      .self false data (fun (_ : false = false) p _ => newSession_of_ne (by decide) p)
    rcases (x.setFilter ((x.filter.complete i).written offset data)).parsed_snd .self false data
      fun _ => [.acquire .lock, .call (.dataCompleteLocked offset data)] with h | ⟨p, h⟩
    · rw [h]
      exact .outside rfl hops
    · rw [h]
      exact .ptpDataCompleteParsed i offset data ok hops

theorem dataCompleteLocked_does (cfg : Config) (offset : ℤ) (data : List Byte) :
    Does x (.dataCompleteLocked offset data) (x.dataCompleteLocked cfg offset data).2 := by
  unfold dataCompleteLocked
  dsimp only
  split_ifs
  · exact .unlocks rfl
  · exact .unlocks rfl
  · exact .dataCompleteLocked offset data none
  · exact .dataCompleteLocked offset data (some .selfData)

theorem produce_does (cfg : Config) (priv : Option Request) :
    Does x (.produce priv) (x.produce cfg priv).2 := by
  unfold produce
  dsimp only
  split_ifs
  · exact .produceOut priv
  · exact .produceIn priv
  · exact .returns rfl

theorem parseSend_does (data : List Byte) :
    Does x .parseSend (x.parsed .send false data fun _ => []).2 := by
  have hops : ParserOps false (lockParse .send false (x.parsers .send) x.session data).2 :=
    x.parserOps _ _ _ fun _ p _ => newSession_of_ne (by decide) p
  rcases x.parsed_snd .send false data fun _ => [] with h | ⟨p, h⟩
  · rw [h]
    exact .outside rfl hops
  · rw [h, List.append_nil]
    exact .parseSend hops

/-- A pass that serves completes the URB when the container ends or the URB is full. -/
theorem serve_done_iff {f : Filter} {u n : ℕ} (h : n ≤ f.frameLength) :
    ((f.advance n).frameLength = 0 ∨
        ((Function.update x.copied u
          (x.copied u ++ readMem f.frameBuffer f.frameTail n)) u).length = x.size u) ↔
      n = f.frameLength ∨ (x.copied u).length + n = x.size u := by
  have hleft : (f.advance n).frameLength = f.frameLength - n := rfl
  rw [hleft, Function.update_self, List.length_append, length_readMem]
  omega

theorem serve_full {f : Filter} {u n : ℕ} (pending : Bool)
    (hdone : n = f.frameLength ∨ (x.copied u).length + n = x.size u) (h : n ≤ f.frameLength) :
    ∃ urb, (x.serve f u n pending).2 =
      [.release .lock, .call (.completeUrb urb), .acquire .lock, .call (.produce none),
        .call (.consume none pending)] := by
  rw [serve, if_pos ((x.serve_done_iff h).mpr hdone)]
  exact ⟨_, rfl⟩

theorem serve_more {f : Filter} {u n : ℕ} (pending : Bool)
    (hmore : ¬ (n = f.frameLength ∨ (x.copied u).length + n = x.size u)) (h : n ≤ f.frameLength) :
    (x.serve f u n pending).2 = [.call (.produce none), .call (.consume (some u) pending)] := by
  rw [serve, if_neg (mt (x.serve_done_iff h).mp hmore)]

theorem consume_does (priv : Option ℕ) (pending : Bool) :
    Does x (.consume priv pending) (x.consume priv pending).2 := by
  unfold consume
  split
  · exact .returns rfl
  next hstate =>
  have hstate : x.filter.state.Filtering := not_not.mp hstate
  split
  · exact .returns rfl
  next u hu =>
  dsimp only
  split
  · exact .returns rfl
  next f hf =>
    obtain ⟨hlen, hmark, hend, hbad⟩ := beginContainer_bypass hf
    refine .consumeBypassed ?_ pending
    simp only [badContainer, hu, Option.any_some, Bool.and_eq_true, Bool.or_eq_true,
      Bool.not_eq_true', decide_eq_true_eq, decide_eq_false_iff_not]
    exact ⟨hstate, ⟨⟨hlen, hmark⟩, hend⟩, hbad⟩
  next f hf =>
    obtain ⟨hleft, hcount, hcontainer⟩ := beginContainer_go hf
    split
    · exact .returns rfl
    next hn =>
    by_cases hdone : f.copyLength (x.size u - (x.copied u).length) = f.frameLength ∨
        (x.copied u).length + f.copyLength (x.size u - (x.copied u).length) = x.size u
    · obtain ⟨urb, hops⟩ := x.serve_full (pending || priv.isNone) hdone (Nat.min_le_right _ _)
      rw [hops]
      refine .consumeFilled ?_ pending _ urb
      rw [Filter.copyLength, hleft, hcount] at hn hdone
      simp only [fillsUrb, hu, Option.any_some, Bool.and_eq_true, Bool.or_eq_true,
        decide_eq_true_eq]
      exact ⟨hstate, ⟨hcontainer, hn⟩, hdone⟩
    · rw [x.serve_more (pending || priv.isNone) hdone (Nat.min_le_right _ _)]
      exact .consumeMore priv pending _ u

end Shared

/-- **What a call does next**: one of the lists. -/
theorem body_does {cfg : Config} {x : Shared} {t : Call} {c : Choice}
    {r : Shared × List FilterOp} (h : t.body cfg x c = some r) : Does x t r.2 := by
  cases t with
  | fault => cases h
  | usbipFilterOnRx urb =>
    obtain rfl := Option.some.inj h
    exact .usbipFilterOnRx urb
  | usbipFilterOnTx urb =>
    obtain rfl := Option.some.inj h
    exact .usbipFilterOnTx urb
  | ptpOnRx urb =>
    obtain rfl := Option.some.inj h
    exact x.ptpOnRx_does urb
  | onRxIn id =>
    obtain rfl := Option.some.inj h
    exact x.onRxIn_does id
  | onRxParsed urb =>
    obtain rfl := Option.some.inj h
    exact x.onRxParsed_does urb
  | onRxCommand urb =>
    obtain rfl := Option.some.inj h
    exact x.onRxCommand_does urb c.early
  | startStream urb =>
    obtain rfl := Option.some.inj h
    exact x.startStream_does urb c.allocs
  | ptpOnTx urb =>
    obtain rfl := Option.some.inj h
    exact x.ptpOnTx_does urb
  | onTxParsed urb done =>
    obtain rfl := Option.some.inj h
    exact x.onTxParsed_does urb done
  | ptpTimer =>
    obtain rfl := Option.some.inj h
    exact .ptpTimer
  | timerLocked =>
    obtain rfl := Option.some.inj h
    exact x.timerLocked_does
  | ptpCmdComplete i ok =>
    obtain rfl := Option.some.inj h
    exact .ptpCmdComplete i ok
  | cmdCompleteLocked ok =>
    obtain rfl := Option.some.inj h
    exact x.cmdCompleteLocked_does cfg ok
  | ptpDataComplete i offset data ok =>
    obtain rfl := Option.some.inj h
    exact x.ptpDataComplete_does i offset data ok
  | dataCompleteLocked offset data =>
    obtain rfl := Option.some.inj h
    exact x.dataCompleteLocked_does cfg offset data
  | dataFailed | changeState _ | stubSubmitUrb | completed =>
    obtain rfl := Option.some.inj h
    exact .returns rfl
  | ptpRemove =>
    obtain rfl := Option.some.inj h
    exact .changesState rfl .idle
  | produce priv =>
    obtain rfl := Option.some.inj h
    exact x.produce_does cfg priv
  | parseSend =>
    obtain rfl := Option.some.inj h
    exact x.parseSend_does c.sent
  | consume priv pending =>
    obtain rfl := Option.some.inj h
    exact x.consume_does priv pending
  | completeUrb urb =>
    obtain rfl := Option.some.inj h
    exact .completeUrb urb
  | stubComplete urb =>
    obtain rfl := Option.some.inj h
    exact .stubComplete urb

end Usbip.Ptp
