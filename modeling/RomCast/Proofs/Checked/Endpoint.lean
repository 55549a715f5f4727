import RomCast.Proofs.Checked.Cursor
import RomCast.Proofs.Checked.Link
import RomCast.Proofs.Cursor.Filling
import RomCast.Proofs.Endpoint.Emits
import RomCast.Proofs.Endpoint.Settled

set_option autoImplicit false

/-!
# Checked endpoints

Reserving and submitting buffers, sending frames and asking for the peer's address on a link in
memory.  Besides what the link relies on, an endpoint counts events, and these counters are what a
checked step may stop at (`Counters.Full`).
-/

namespace RomCast

open RomCast.Checked

namespace Resolver.Checked

/-- A question was sent.  Questions are counted in 32 bits. -/
def requestSent (r : Resolver) (now : Nat) : Except Fault Resolver :=
  match r.state with
  | .idle => .ok { r with state := .awaiting 1 now }
  | .awaiting attempts _ =>
      if attempts + 1 < 2 ^ 32 then .ok { r with state := .awaiting (attempts + 1) now }
      else .error .overflow
  | .resolved _ => .ok r

theorem requestSent_eq {r : Resolver} (h : r.needsRequest = true) (now : Nat) :
    requestSent r now = .ok (r.requestSent now) := by
  have hidle : r.state = .idle := by
    simp only [needsRequest, Bool.and_eq_true, decide_eq_true_eq] at h
    exact h.2
  rw [requestSent, Resolver.requestSent, hidle]

end Resolver.Checked

namespace Endpoint

/-! ## Counters -/

/-- The counters of an endpoint. -/
inductive Counter where
  | rxFrames
  | rxDropped
  | rxDelivered
  | txFrames
  | txDropped
  | arpReplies
  | arpRequests
  deriving DecidableEq

namespace Counter

/-- What a counter shows. -/
def get : Counter → Counters → Nat
  | rxFrames => Counters.rxFrames
  | rxDropped => Counters.rxDropped
  | rxDelivered => Counters.rxDelivered
  | txFrames => Counters.txFrames
  | txDropped => Counters.txDropped
  | arpReplies => Counters.arpReplies
  | arpRequests => Counters.arpRequests

/-- Set a counter. -/
def put (n : Nat) (c : Counters) : Counter → Counters
  | rxFrames => { c with rxFrames := n }
  | rxDropped => { c with rxDropped := n }
  | rxDelivered => { c with rxDelivered := n }
  | txFrames => { c with txFrames := n }
  | txDropped => { c with txDropped := n }
  | arpReplies => { c with arpReplies := n }
  | arpRequests => { c with arpRequests := n }

theorem get_put (counter other : Counter) (n : Nat) (c : Counters) :
    other.get (counter.put n c) = if other = counter then n else other.get c := by
  cases counter <;> cases other <;> rfl

/-- Count one more event. -/
def bump (counter : Counter) (c : Counters) : Counters := counter.put (counter.get c + 1) c

/-- A counter only ever goes up. -/
theorem get_le_get_bump (counter other : Counter) (c : Counters) :
    other.get c ≤ other.get (counter.bump c) := by
  rw [bump, get_put]
  split
  · rename_i hsame
    rw [hsame]
    exact Nat.le_succ _
  · exact Nat.le_refl _

end Counter

/-- Some counter has passed the largest number of 64 bits. -/
def Counters.Full (c : Counters) : Prop := ∃ counter : Counter, 2 ^ 64 ≤ counter.get c

theorem Counters.Full.bump {c : Counters} (h : c.Full) (counter : Counter) :
    (counter.bump c).Full := by
  obtain ⟨full, hfull⟩ := h
  exact ⟨full, Nat.le_trans hfull (counter.get_le_get_bump full c)⟩

/-- An endpoint that has counted past the end of a counter. -/
abbrev Full (e : OnMemory) : Prop := e.counters.Full

/-- An endpoint with a sound pool that has seen so many frames. -/
structure Ready (held : List Nat) (seen : Nat) (e : OnMemory) : Prop where
  pool : e.link.pool.Sound held
  seen_le : seen ≤ e.counters.rxFrames

theorem Ready.bump {held : List Nat} {seen : Nat} {e : OnMemory} (h : Ready held seen e)
    (counter : Counter) : Ready held seen { e with counters := counter.bump e.counters } :=
  ⟨h.pool, Nat.le_trans h.seen_le (counter.get_le_get_bump .rxFrames e.counters)⟩

namespace Checked

variable {ε : Type}

/-- Count one more event. -/
def count (counter : Counter) : Action (Trap ε) OnMemory Unit :=
  change fun e => do
    return { e with counters := counter.put (← tick (counter.get e.counters)) e.counters }

/-- Give every sent buffer back. -/
def drainAcks : Action (Trap ε) OnMemory Unit :=
  change fun e => do return { e with link := ← MemoryLink.Checked.drainAcks e.link }

/-- Try for a buffer `n` times, asking the link to send what waits after each failure. -/
def reserveTries (length : Nat) : Nat → Action (Trap LinkError) OnMemory (Option Descriptor)
  | 0 => do
      count .txDropped
      return none
  | n + 1 => do
      match ← attempt (onLink ((Transport.alloc length).mapError Trap.failure)) with
      | .ok d => return some d
      | .error .exhausted =>
          onLink MemoryLink.Checked.process
          drainAcks
          reserveTries length n
      | .error e => throw (.failure e)

/-- A transmit buffer for `length` bytes, or none when the frame has to be dropped. -/
def reserve (length : Nat) : Action (Trap LinkError) OnMemory (Option Descriptor) := do
  drainAcks
  reserveTries length (maxAllocRetries + 1)

/-- Queue a filled buffer. -/
def submit (d : Descriptor) : Action (Trap LinkError) OnMemory Unit := do
  unless Transport.ready (← get).link do
    onLink MemoryLink.Checked.process
  onLink ((Transport.submit d).mapError Trap.failure)
  count .txFrames

/-- Put what was submitted onto the wire, and give sent buffers back. -/
def flush : Action (Trap LinkError) OnMemory Unit := do
  onLink MemoryLink.Checked.process
  drainAcks

/-- Copy a frame into a buffer. -/
def store (d : Descriptor) (frame : Bytes) : Action (Trap ε) OnMemory Unit :=
  change fun e => do
    let pool ← TransmitPool.Checked.store e.link.pool d frame
    return { e with link := { e.link with pool } }

/-- Send a complete frame; false when it had to be dropped. -/
def send (frame : Bytes) : Action (Trap FrameError) OnMemory Bool := do
  match ← (reserve frame.length).mapError (Trap.map FrameError.link) with
  | none => return false
  | some d =>
      store d frame
      (submit d).mapError (Trap.map FrameError.link)
      return true

/-- The frame that asks who owns an address, written into a buffer of its own. -/
def requestFrame (mac : Mac) (source target : Ipv4Address) : Except (Trap FrameError) Bytes :=
  let written : Action (Trap GuardError) Writer Unit := do
    Writer.Checked.put
      ({ target := Mac.broadcast, source := mac, etherType := etherTypeArp } : EthernetHeader)
    Writer.Checked.put (ArpPacket.request mac source target)
  match written { buffer := Bytes.zeros 42 } with
  | .ok _ w => .ok w.buffer
  | .error cause _ => .error (cause.map FrameError.guarded)

/-- Ask for the peer's hardware address. -/
def sendRequest (now : Nat) : Action (Trap FrameError) OnMemory Unit := do
  let e ← get
  match e.resolver.target with
  | none => return ()
  | some target =>
      let frame ← Action.ofExcept
        (requestFrame (Transport.mac e.link) e.sourceAddress target)
      if ← send frame then
        change fun e => do
          return { e with resolver := ← Resolver.Checked.requestSent e.resolver now }
        count .arpRequests

/-- Ask for the peer's hardware address, unless that was done or need not be done. -/
def askFirst (now : Nat) : Action (Trap FrameError) OnMemory Unit := do
  if (← get).resolver.needsRequest then sendRequest now

variable {held : List Nat} {seen : Nat}

theorem follows_bump {Q : Unit → OnMemory → Prop} {E : OnMemory → Prop} (counter : Counter)
    (hQ : ∀ e, Ready held seen e → Q () { e with counters := counter.bump e.counters }) :
    Follows Full (Ready held seen) (count counter : Action (Trap ε) OnMemory Unit)
      (Endpoint.count counter.bump) Q E := by
  refine follows_count (fun e _ => ?_) hQ fun e _ he => he.bump counter
  refine ((counts_tick (counter.get e.counters)).mono fun hlast => ⟨counter, ?_⟩).map rfl
  show 2 ^ 64 ≤ counter.get (counter.put _ e.counters)
  rwa [Counter.get_put, if_pos rfl]

theorem count_follows {E : OnMemory → Prop} (counter : Counter) :
    Follows Full (Ready held seen) (count counter : Action (Trap ε) OnMemory Unit)
      (Endpoint.count counter.bump) (fun _ => Ready held seen) E :=
  follows_bump counter fun _ he => he.bump counter

/-- A frame that is counted has been seen. -/
theorem count_rxFrames_follows {E : OnMemory → Prop} :
    Follows Full (Ready held seen) (count .rxFrames : Action (Trap ε) OnMemory Unit)
      (Endpoint.count (Counter.rxFrames.bump)) (fun _ => Ready held (seen + 1)) E :=
  follows_bump .rxFrames fun _ he => ⟨he.pool, Nat.succ_le_succ he.seen_le⟩

/-- A step of the link counts nothing. -/
theorem onLink_follows {α : Type} {x : Action (Trap ε) MemoryLink α} {y : Action ε MemoryLink α}
    {after : α → List Nat} {failed : List Nat} {R : α → Prop}
    (h : Follows never (fun link => link.pool.Sound held) x y
      (fun a link => link.pool.Sound (after a) ∧ R a) fun link => link.pool.Sound failed) :
    Follows Full (Ready held seen) (onLink x) (onLink y)
      (fun a e => Ready (after a) seen e ∧ R a) (Ready failed seen) :=
  h.on (fun _ he => he.pool) (fun _ _ _ he hlink => ⟨⟨hlink.1, he.seen_le⟩, hlink.2⟩)
    (fun _ _ he hlink => ⟨hlink, he.seen_le⟩) (fun _ _ _ hnever => hnever.elim)
    fun _ _ _ _ hfull => hfull

theorem process_follows :
    Follows Full (Ready [] seen) (onLink MemoryLink.Checked.process)
      (onLink (Transport.process : Action LinkError MemoryLink Unit)) (fun _ => Ready [] seen)
      (Ready [] seen) :=
  (onLink_follows
    (MemoryLink.Checked.process_follows.mono (fun _ h => h) (fun _ _ h => ⟨h, trivial⟩)
      fun _ h => h)).mono (fun _ h => h) (fun _ _ h => h.1) fun _ h => h

theorem drainAcks_follows :
    Follows Full (Ready [] seen) (drainAcks : Action (Trap ε) OnMemory Unit) Endpoint.drainAcks
      (fun _ => Ready [] seen) (Ready [] seen) := by
  refine follows_change (fun e he => ?_) (fun e he => ?_) fun _ _ hfull => hfull
  · rw [MemoryLink.Checked.drainAcks_eq he.pool.accounts]
    rfl
  · exact ⟨MemoryLink.Checked.drainAcks_sound he.pool, he.seen_le⟩

/-! ## Buffers -/

/-- A buffer that was asked for has the length that was asked for. -/
def Granted (length : Nat) (d? : Option Descriptor) : Prop :=
  ∀ d, d? = some d → d.length = length ∧ length ≤ bufferSize

theorem alloc_follows (length : Nat) :
    Follows never MemoryLink.Checked.Idle ((Transport.alloc length).mapError Trap.failure)
      (Transport.alloc length : Action LinkError MemoryLink Descriptor)
      (fun d link => link.pool.Sound [d.slot] ∧ Granted length (some d))
      MemoryLink.Checked.Idle := by
  have halloc : ∀ link : MemoryLink, (Transport.alloc length : Action LinkError MemoryLink
      Descriptor) link = (TransmitPool.alloc length).on MemoryLink.pool
        (fun pool link => { link with pool }) link := fun _ => rfl
  -- A buffer is handed out, or nothing changes.
  have houtcome : ∀ link, MemoryLink.Checked.Idle link →
      (∃ e, (Transport.alloc length : Action LinkError MemoryLink Descriptor) link =
        .error e link) ∨
      ∃ d link', (Transport.alloc length : Action LinkError MemoryLink Descriptor) link =
        .ok d link' ∧ link'.pool.Sound [d.slot] ∧ Granted length (some d) := by
    intro link hlink
    rw [halloc, Action.on]
    by_cases hlength : length ≤ bufferSize
    · rcases TransmitPool.alloc_accounts hlink.accounts hlength with
        ⟨-, hnone⟩ | ⟨slot, rest, -, hsome, haccounts⟩
      · rw [hnone]
        exact Or.inl ⟨_, rfl⟩
      · rw [hsome]
        refine Or.inr ⟨_, _, rfl, ⟨haccounts, hlink.count_lt, hlink.lengths⟩, ?_⟩
        intro d hd
        cases hd
        exact ⟨rfl, hlength⟩
    · rw [TransmitPool.alloc, if_pos (Nat.not_le.mp hlength)]
      exact Or.inl ⟨_, rfl⟩
  refine follows_failure (fun link hlink d link' h => ?_) (fun link hlink e link' h => ?_)
    fun _ _ hnever => hnever
  · rcases houtcome link hlink with ⟨e, herror⟩ | ⟨d', link'', hok, hsound, hgranted⟩
    · rw [herror] at h
      cases h
    · rw [hok] at h
      cases h
      exact ⟨hsound, hgranted⟩
  · rcases houtcome link hlink with ⟨e', herror⟩ | ⟨d, link'', hok, -⟩
    · rw [herror] at h
      cases h
      exact hlink
    · rw [hok] at h
      cases h

theorem reserveTries_follows (length tries : Nat) :
    Follows Full (Ready [] seen) (reserveTries length tries) (Endpoint.reserveTries length tries)
      (fun d? e => Ready (d?.map Descriptor.slot).toList seen e ∧ Granted length d?)
      (Ready [] seen) := by
  induction tries with
  | zero =>
    refine (count_follows .txDropped).bind fun _ => ?_
    exact follows_pure fun e he => ⟨he, fun d hd => nomatch hd⟩
  | succ tries ih =>
    have hattempt : Follows Full (Ready [] seen)
        (attempt (onLink ((Transport.alloc length).mapError Trap.failure)) :
          Action (Trap LinkError) OnMemory (Except LinkError Descriptor))
        (onLink (Transport.alloc length)).attempt
        (fun answer e => match answer with
          | .ok d => Ready [d.slot] seen e ∧ Granted length (some d)
          | .error _ => Ready [] seen e)
        (Ready [] seen) :=
      (onLink_follows (alloc_follows length)).attempt
        (fun _ _ h => h) fun _ _ h => h
    refine hattempt.bind fun answer => ?_
    cases answer with
    | ok d => exact follows_pure fun e he => he
    | error cause =>
      cases cause with
      | exhausted =>
        exact process_follows.bind fun _ => drainAcks_follows.bind fun _ => ih
      | tooLarge n => exact follows_throw fun e he => he
      | failed cause => exact follows_throw fun e he => he

theorem reserve_follows (length : Nat) :
    Follows Full (Ready [] seen) (reserve length) (Endpoint.reserve length)
      (fun d? e => Ready (d?.map Descriptor.slot).toList seen e ∧ Granted length d?)
      (Ready [] seen) :=
  drainAcks_follows.bind fun _ => reserveTries_follows length _

theorem submit_follows {d : Descriptor} (hd : d.length ≤ bufferSize) :
    Follows Full (Ready [d.slot] seen) (submit d) (Endpoint.submit d) (fun _ => Ready [] seen)
      (Ready [] seen) := by
  have hlink : Follows never (fun link : MemoryLink => link.pool.Sound [d.slot])
      ((Transport.submit d).mapError Trap.failure)
      (Transport.submit d : Action LinkError MemoryLink Unit)
      (fun _ link => link.pool.Sound [] ∧ True) fun link => link.pool.Sound [] := by
    refine follows_failure (fun link h _ link' hsubmit => ?_) (fun link _ e link' hsubmit => ?_)
      fun _ _ hnever => hnever
    · cases hsubmit
      exact ⟨h.submit hd, trivial⟩
    · cases hsubmit
  have hsubmit : Follows Full (Ready [d.slot] seen)
      (do
        onLink ((Transport.submit d).mapError Trap.failure)
        count .txFrames)
      (do
        onLink (Transport.submit d)
        Endpoint.count fun c => { c with txFrames := c.txFrames + 1 } :
          Action LinkError OnMemory Unit)
      (fun _ => Ready [] seen) (Ready [] seen) :=
    (onLink_follows hlink).bind fun _ =>
      (count_follows .txFrames).mono (fun _ h => h.1) (fun _ _ h => h) fun _ h => h
  refine follows_get fun e he => ?_
  have hready : Transport.ready e.link = true := rfl
  exact (hsubmit.mono (fun _ hsame => hsame ▸ he) (fun _ _ h => h) fun _ h => h)

theorem flush_follows :
    Follows Full (Ready [] seen) flush Endpoint.flush (fun _ => Ready [] seen) (Ready [] seen) :=
  process_follows.bind fun _ => drainAcks_follows

/-! ## Frames -/

theorem store_follows {d : Descriptor} {frame : Bytes} (hd : d.length ≤ bufferSize)
    (hframe : frame.length = d.length) {E : OnMemory → Prop} :
    Follows Full (Ready [d.slot] seen) (store d frame : Action (Trap ε) OnMemory Unit)
      (modify fun e => { e with link := Transport.store e.link d frame })
      (fun _ => Ready [d.slot] seen) E := by
  refine follows_change (fun e he => ?_) (fun e he => ⟨he.pool.store frame, he.seen_le⟩)
    fun _ _ hfull => hfull
  rw [TransmitPool.Checked.store_eq he.pool hd hframe]
  rfl

theorem send_follows (frame : Bytes) :
    Follows Full (Ready [] seen) (send frame) (Endpoint.send frame) (fun _ => Ready [] seen)
      (Ready [] seen) := by
  refine ((reserve_follows frame.length).mapFailure FrameError.link).bind fun d? => ?_
  cases d? with
  | none => exact follows_pure fun e he => he.1
  | some d =>
    refine follows_of_and_right fun hgranted => ?_
    obtain ⟨hlength, hfits⟩ := hgranted d rfl
    have hd : d.length ≤ bufferSize := hlength ▸ hfits
    refine (store_follows hd hlength.symm).bind fun _ => ?_
    refine ((submit_follows hd).mapFailure FrameError.link).bind fun _ => ?_
    exact follows_pure fun _ h => h

theorem requestFrame_eq (mac : Mac) (source target : Ipv4Address) :
    requestFrame mac source target = .ok (Endpoint.requestFrame mac source target) := by
  obtain ⟨ethernet, hethernet⟩ : ∃ h : EthernetHeader,
      h = { target := Mac.broadcast, source := mac, etherType := etherTypeArp } := ⟨_, rfl⟩
  obtain ⟨arp, harp⟩ : ∃ p : ArpPacket, p = ArpPacket.request mac source target := ⟨_, rfl⟩
  have hwithin : Writer.Within 42 0 { buffer := Bytes.zeros 42 } :=
    ⟨Bytes.length_zeros 42, Nat.le_refl 0, Nat.zero_le 42⟩
  have hsize : 42 < 2 ^ 64 := by decide
  have hfollows := ((Writer.Checked.put_follows hsize ethernet).bind fun _ =>
    Writer.Checked.put_follows hsize arp).eq_of_never hwithin
  have hplain : (do
      Writer.put ethernet
      Writer.put arp : Action GuardError Writer Unit) { buffer := Bytes.zeros 42 } =
        .ok () (Writer.holding (Header.encode ethernet ++ Header.encode arp) []) := by
    have hstart : ({ buffer := Bytes.zeros 42 } : Writer) =
        Writer.holding [] (Bytes.zeros 14 ++ (Bytes.zeros 28 ++ [])) := rfl
    rw [Action.bind_apply, hstart, Writer.put_fills ethernet [] (Bytes.zeros 14) _
      (LawfulHeader.length_encode ethernet).symm]
    exact Writer.put_fills arp _ (Bytes.zeros 28) [] (LawfulHeader.length_encode arp).symm
  rw [Action.mapError, hplain] at hfollows
  rw [requestFrame, ← hethernet, ← harp]
  simp only [hfollows, Writer.buffer_holding, List.append_nil]
  rw [hethernet, harp]
  rfl

theorem sendRequest_follows (now : Nat) :
    Follows Full (fun e => Ready [] seen e ∧ e.resolver.needsRequest = true) (sendRequest now)
      (Endpoint.sendRequest now) (fun _ => Ready [] seen) (Ready [] seen) := by
  refine follows_get fun e he => ?_
  obtain ⟨hready, hneeds⟩ := he
  cases htarget : e.resolver.target with
  | none => exact follows_pure fun _ hsame => hsame ▸ hready
  | some target =>
    refine follows_ofExcept_ok (requestFrame_eq _ _ _) ?_
    -- What is sent leaves the resolution where it was.
    have hsend (frame : Bytes) : Follows Full (· = e) (send frame) (Endpoint.send frame)
        (fun _ e' => Ready [] seen e' ∧ Settled e.config e.resolver e') (Ready [] seen) := by
      refine ((send_follows frame).frame (settled_aside.send frame)).mono (fun e' hsame => ?_)
        (fun _ _ h => h) fun _ h => h.1
      rw [hsame]
      exact ⟨hready, rfl, rfl⟩
    refine (hsend _).bind fun sent => Follows.ite (fun _ => ?_) fun _ =>
      follows_pure fun _ h => h.1
    have hasked : Follows Full (fun e' => Ready [] seen e' ∧ Settled e.config e.resolver e')
        (change fun e' : OnMemory => do
          return { e' with resolver := ← Resolver.Checked.requestSent e'.resolver now } :
            Action (Trap FrameError) OnMemory Unit)
        (modify fun e' => { e' with resolver := e'.resolver.requestSent now })
        (fun _ => Ready [] seen) (Ready [] seen) := by
      refine follows_change (fun e' he' => ?_) (fun e' he' => ?_) fun _ _ hfull => hfull
      · rw [he'.2.2, Resolver.Checked.requestSent_eq hneeds]
        rfl
      · exact ⟨he'.1.pool, he'.1.seen_le⟩
    exact hasked.bind fun _ => count_follows .arpRequests

theorem askFirst_follows (now : Nat) :
    Follows Full (Ready [] seen) (askFirst now) (Endpoint.askFirst now) (fun _ => Ready [] seen)
      (Ready [] seen) := by
  refine follows_get fun e he => ?_
  refine Follows.ite (fun hneeds => ?_) fun _ => follows_pure fun _ hsame => hsame ▸ he
  exact (sendRequest_follows now).mono (fun _ hsame => hsame ▸ ⟨he, hneeds⟩) (fun _ _ h => h)
    fun _ h => h

end Checked

end Endpoint

end RomCast
