import RomCast.Proofs.Endpoint.Inbound
import RomCast.Proofs.Endpoint.Resolution
import RomCast.Proofs.Endpoint.Settled

set_option autoImplicit false

/-!
# Where the peer's address comes from

An endpoint hears where its peer is in two ways: an ARP answer says so, and every IPv4 packet of the
peer comes from there.  An address that is taken from a packet is one that a card can have.  An
awaited answer is believed whatever address it names, so that the address a run ends up with is
usable exactly as long as such answers name usable ones (`resolved_usable_iff`).
-/

namespace RomCast

/-- The address can be that of one card. -/
def Mac.IsUsable (mac : Mac) : Prop := mac ≠ Mac.broadcast ∧ mac ≠ Mac.zero

instance (mac : Mac) : Decidable mac.IsUsable := inferInstanceAs (Decidable (_ ∧ _))

/-! ## One resolver -/

/-- What a frame says about where an address is. -/
inductive Tidings where
  /-- An ARP answer: `ip` is at `mac`. -/
  | answer (ip : Ipv4Address) (mac : Mac)
  /-- A packet of `ip` came from `mac`. -/
  | traffic (ip : Ipv4Address) (mac : Mac)

namespace Resolver

variable {r : Resolver} {mac : Mac}

/-- What becomes of a resolver that hears such tidings, or none. -/
def heed (r : Resolver) : Option Tidings → Resolver
  | none => r
  | some (.answer ip mac) => (r.handleReply ip mac).2
  | some (.traffic ip mac) => (r.learn ip mac).2

/-- The tidings that a resolver takes an address from. -/
inductive Believes (r : Resolver) (mac : Mac) : Tidings → Prop where
  /-- An awaited answer about the peer, whatever address it names. -/
  | answer {ip : Ipv4Address} (awaiting : r.state.IsAwaiting) (target : r.target = some ip) :
      Believes r mac (.answer ip mac)
  /-- A packet of the peer, when the address is open and this one can be a card's. -/
  | traffic {ip : Ipv4Address} (unresolved : ¬ r.state.IsResolved) (target : r.target = some ip)
      (usable : mac.IsUsable) : Believes r mac (.traffic ip mac)

theorem handleReply_resolved (r : Resolver) (ip : Ipv4Address) (mac known : Mac) :
    (r.handleReply ip mac).2.state = .resolved known ↔ r.state = .resolved known ∨
      (r.state.IsAwaiting ∧ r.target = some ip ∧ mac = known) := by
  unfold handleReply
  cases hstate : r.state with
  | idle => simp [hstate, Resolution.not_isAwaiting_idle]
  | resolved mac' => simp [hstate, Resolution.not_isAwaiting_resolved]
  | awaiting attempts lastSent =>
    have hawaiting : (Resolution.awaiting attempts lastSent).IsAwaiting := ⟨attempts, lastSent, rfl⟩
    by_cases htarget : r.target = some ip
    · simp [htarget, hawaiting]
    · simp [htarget, hstate]

theorem learn_resolved (r : Resolver) (ip : Ipv4Address) (mac known : Mac) :
    (r.learn ip mac).2.state = .resolved known ↔ r.state = .resolved known ∨
      (¬ r.state.IsResolved ∧ r.target = some ip ∧ mac.IsUsable ∧ mac = known) := by
  unfold learn Mac.IsUsable
  cases hstate : r.state with
  | resolved mac' => simp [hstate, Resolution.IsResolved]
  | idle | awaiting attempts lastSent =>
    by_cases hcounts : r.target = some ip ∧ mac ≠ Mac.broadcast ∧ mac ≠ Mac.zero
    · simp [hcounts, Resolution.IsResolved]
    · simp only [if_neg hcounts, hstate]
      grind

/-- An address is known after tidings when it was before, or when it is taken from them. -/
theorem heed_resolved (tidings? : Option Tidings) :
    (r.heed tidings?).state = .resolved mac ↔
      r.state = .resolved mac ∨ ∃ tidings, tidings? = some tidings ∧ r.Believes mac tidings := by
  cases tidings? with
  | none => simp [heed]
  | some tidings =>
    cases tidings with
    | answer ip named =>
      refine (handleReply_resolved r ip named mac).trans (or_congr_right ⟨?_, ?_⟩)
      · rintro ⟨hawaiting, htarget, rfl⟩
        exact ⟨_, rfl, .answer hawaiting htarget⟩
      · rintro ⟨_, ⟨⟩, hbelieved⟩
        cases hbelieved with
        | answer hawaiting htarget => exact ⟨hawaiting, htarget, rfl⟩
    | traffic ip sender =>
      refine (learn_resolved r ip sender mac).trans (or_congr_right ⟨?_, ?_⟩)
      · rintro ⟨hopen, htarget, husable, rfl⟩
        exact ⟨_, rfl, .traffic hopen htarget husable⟩
      · rintro ⟨_, ⟨⟩, hbelieved⟩
        cases hbelieved with
        | traffic hopen htarget husable => exact ⟨hopen, htarget, husable, rfl⟩

/-- The address of the peer, as soon as it is known. -/
def known? (r : Resolver) : Option Mac :=
  match r.state with
  | .resolved mac => some mac
  | _ => none

theorem known?_eq_some : r.known? = some mac ↔ r.state = .resolved mac := by
  unfold known?
  cases r.state <;> simp

theorem known?_requestSent (r : Resolver) (now : Nat) : (r.requestSent now).known? = r.known? := by
  unfold requestSent known?
  cases hstate : r.state <;> simp [hstate]

/-- Giving up forgets that something was asked, not where the peer is. -/
theorem known?_poll (r : Resolver) (now : Nat) : (r.poll now).2.known? = r.known? := by
  by_cases hgave : (r.poll now).1 = .gaveUp
  · obtain ⟨attempts, lastSent, hawaiting, -⟩ :=
      poll_of_ne_none (by rw [hgave]; exact fun h => nomatch h)
    rw [known?, known?, state_poll_of_gaveUp hgave, hawaiting]
  · rw [poll_eq_self hgave]

end Resolver

namespace Endpoint

open RomCast.Action (Keeps)

variable {L : Type} {ε α : Type} {config : Config} {resolver : Resolver}
  {known : Option Mac}

/-! ## One frame -/

/-- What an ARP frame says: only answers say anything. -/
def arpTidings? (frame : Bytes) : Option Tidings :=
  match (Reader.read ArpPacket).result ⟨frame, ipv4Start⟩ with
  | .error _ => none
  | .ok arp =>
      if arp.isEthernetIpv4 ∧ arp.opcode = ArpPacket.opReply then
        some (.answer arp.senderIp arp.senderMac)
      else none

/-- What an IPv4 frame from `sender` says, when its header is right and it is for this endpoint. -/
def Config.ipv4Tidings? (config : Config) (sender : Mac) (frame : Bytes) : Option Tidings :=
  match checkIpv4 frame with
  | .error _ => none
  | .ok ip => if config.accepts ip.target then some (.traffic ip.source sender) else none

/-- What a frame says about where an address is. -/
def Config.tidings? (config : Config) (frame : Bytes) : Option Tidings :=
  match Reader.readFront EthernetHeader frame with
  | .error _ => none
  | .ok ethernet =>
      if ethernet.etherType = etherTypeArp then arpTidings? frame
      else if ethernet.etherType = etherTypeIpv4 then config.ipv4Tidings? ethernet.source frame
      else none

theorem onFirst_settled {τ : Type} {x : Action ε (Endpoint L) α}
    (h : Keeps (Settled config resolver) x) :
    Keeps (fun s : Endpoint L × τ => Settled config resolver s.1) x.onFirst :=
  Keeps.on fun s hs => h s.1 hs

/-- An endpoint with this configuration that knows so much of where its peer is. -/
def Knows (config : Config) (known : Option Mac) (e : Endpoint L) : Prop :=
  e.config = config ∧ e.resolver.known? = known

/-- What leaves the resolver alone leaves alone what is known. -/
theorem knows_of_settled {x : Action ε (Endpoint L) α}
    (h : ∀ config resolver, Keeps (Settled config resolver) x) : Keeps (Knows config known) x := by
  rintro e ⟨rfl, rfl⟩
  obtain ⟨hconfig, hresolver⟩ := h e.config e.resolver e ⟨rfl, rfl⟩
  rw [← hresolver]
  exact ⟨hconfig, rfl⟩

theorem receiveIpv4_heeds (e : Endpoint L) (sender : Mac) (frame : Bytes) :
    Settled e.config (e.resolver.heed (e.config.ipv4Tidings? sender frame))
      ((receiveIpv4 sender frame).state e) := by
  unfold receiveIpv4 Config.ipv4Tidings?
  cases checkIpv4 frame with
  | error cause => exact ⟨rfl, rfl⟩
  | ok ip =>
    rw [Action.state_ofExcept_bind_ok, Action.state_bind_of_ok (Action.get_apply e)]
    cases haccepts : e.config.accepts ip.target with
    | false =>
      simp only [haccepts]
      exact ⟨rfl, rfl⟩
    | true =>
      simp only [haccepts]
      exact Keeps.state_bind (x := modify _) ⟨rfl, rfl⟩ fun _ => Action.keeps_ofExcept _ _

variable [Transport L]

theorem receiveArp_heeds (e : Endpoint L) (frame : Bytes) :
    Settled e.config (e.resolver.heed (arpTidings? frame)) (receiveArp.state (e, frame)).1 := by
  unfold receiveArp arpTidings?
  rw [Action.state_bind_of_ok (Action.get_apply (e, frame))]
  cases hread : (Reader.read ArpPacket).result ⟨frame, ipv4Start⟩ with
  | error cause =>
    simp only [hread, Action.except_mapError_error, Action.state_ofExcept_bind_error]
    exact ⟨rfl, rfl⟩
  | ok arp =>
    simp only [hread, Action.except_mapError_ok, Action.state_ofExcept_bind_ok]
    by_cases hkind : arp.isEthernetIpv4 = true
    · simp only [hkind, Bool.not_true, Bool.false_eq_true, if_false, true_and]
      by_cases hquestion : arp.opcode = ArpPacket.opRequest
      · -- A question says nothing, and answering it leaves the resolver alone.
        have hno : arp.opcode ≠ ArpPacket.opReply := by
          rw [hquestion]
          decide
        rw [if_pos hquestion, if_neg hno]
        by_cases hmine : e.config.source = some arp.targetIp
        · simp only [hmine, ne_eq, not_true_eq_false, if_false]
          exact ((onFirst_settled (settled_aside.send _)).bind fun sent =>
            Keeps.ite (onFirst_settled (count_settled _)) (Action.keeps_pure _ ()))
              (e, answerInPlace (Transport.mac e.link) frame) ⟨rfl, rfl⟩
        · simp only [ne_eq, hmine, not_false_eq_true, if_true]
          exact ⟨rfl, rfl⟩
      · rw [if_neg hquestion]
        by_cases hreply : arp.opcode = ArpPacket.opReply
        · rw [if_pos hreply, if_pos hreply]
          exact ⟨rfl, rfl⟩
        · rw [if_neg hreply, if_neg hreply]
          exact ⟨rfl, rfl⟩
    · simp only [hkind]
      exact ⟨rfl, rfl⟩

theorem dispatch_heeds (e : Endpoint L) (frame : Bytes) :
    Settled e.config (e.resolver.heed (e.config.tidings? frame)) (dispatch.state (e, frame)).1 := by
  unfold dispatch Config.tidings?
  rw [Action.state_bind_of_ok (Action.get_apply (e, frame))]
  cases hread : Reader.readFront EthernetHeader frame with
  | error cause =>
    simp only [hread, Action.except_mapError_error, Action.state_ofExcept_bind_error]
    exact ⟨rfl, rfl⟩
  | ok ethernet =>
    simp only [hread, Action.except_mapError_ok, Action.state_ofExcept_bind_ok]
    by_cases harp : ethernet.etherType = etherTypeArp
    · rw [if_pos harp, if_pos harp, Action.state_bind_pure]
      exact receiveArp_heeds e frame
    · rw [if_neg harp, if_neg harp]
      by_cases hipv4 : ethernet.etherType = etherTypeIpv4
      · rw [if_pos hipv4, if_pos hipv4, Action.state_onFirst]
        exact receiveIpv4_heeds e ethernet.source frame
      · rw [if_neg hipv4, if_neg hipv4]
        exact ⟨rfl, rfl⟩

/-- Whatever comes in, and whether it is refused or not: what becomes of the resolver is what the
frame says, and nothing else. -/
theorem handle_heeds (e : Endpoint L) (frame : Bytes) :
    Settled e.config (e.resolver.heed (e.config.tidings? frame)) (handle.state (e, frame)).1 := by
  let counted : Endpoint L := { e with counters.rxFrames := e.counters.rxFrames + 1 }
  unfold handle
  have hcount : (count fun c => { c with rxFrames := c.rxFrames + 1 } :
      Action FrameError (Endpoint L) Unit).onFirst (e, frame) = .ok () (counted, frame) := rfl
  rw [Action.state_bind_of_ok hcount]
  refine Keeps.state_bind (P := fun s : Endpoint L × Bytes => Settled _ _ s.1) ?_ fun answer => ?_
  · rw [Action.state_attempt]
    exact dispatch_heeds counted frame
  · -- What follows only counts.
    cases answer with
    | error cause =>
      exact (onFirst_settled (count_settled _)).bind fun _ => Action.keeps_throw _ cause
    | ok range? =>
      cases range? with
      | none => exact Action.keeps_pure _ none
      | some range =>
        exact (onFirst_settled (count_settled _)).bind fun _ => Action.keeps_pure _ (some range)

/-! ## Everything else -/

theorem sendRequest_knows (now : Nat) :
    Keeps (Knows config known) (sendRequest now : Action FrameError (Endpoint L) Unit) := by
  refine Keeps.bind (Action.keeps_get _) fun e => ?_
  cases e.resolver.target with
  | none => exact Action.keeps_pure _ ()
  | some target =>
    refine (knows_of_settled fun _ _ => settled_aside.send _).bind fun sent => ?_
    refine Keeps.ite ?_ (Action.keeps_pure _ ())
    refine Keeps.bind (Action.keeps_modify ?_) fun _ => knows_of_settled fun _ _ => count_settled _
    rintro e ⟨hconfig, hknown⟩
    exact ⟨hconfig, (Resolver.known?_requestSent e.resolver now).trans hknown⟩

theorem pollTimers_knows (now : Nat) :
    Keeps (Knows config known) (pollTimers now : Action FrameError (Endpoint L) Unit) := by
  rintro e ⟨hconfig, hknown⟩
  unfold pollTimers
  rw [Action.state_bind_of_ok (Action.get_apply e)]
  refine Keeps.state_bind (x := modify _) ?_ fun _ =>
    Keeps.ite (sendRequest_knows now) (Action.keeps_pure _ ())
  exact ⟨hconfig, (Resolver.known?_poll e.resolver now).trans hknown⟩

theorem transmit_knows (now room : Nat) (fill : Action GuardError Writer Unit) :
    Keeps (Knows config known)
      (transmit now room fill : Action FrameError (Endpoint L) Bool) := by
  refine Keeps.bind ?_ fun _ => knows_of_settled fun _ _ => sendDatagram_settled room fill
  exact Keeps.bind (Action.keeps_get _) fun e =>
    Keeps.ite (sendRequest_knows now) (Action.keeps_pure _ ())

/-! ## Runs -/

/-- The frame that a use deals with. -/
def Use.frame? : Use L → Option Bytes
  | inbound frame => some frame
  | _ => none

/-- What becomes of the resolver in one use is what the frame says that the use deals with. -/
theorem Use.apply_knows (use : Use L) (now : Nat) (e : Endpoint L) :
    Knows e.config (e.resolver.heed (use.frame?.bind e.config.tidings?)).known?
      (use.apply now e) := by
  have hrest : Knows e.config e.resolver.known? e := ⟨rfl, rfl⟩
  cases use with
  | transmit room payload => exact transmit_knows now room payload.fill e hrest
  | timers => exact pollTimers_knows now e hrest
  | inbound frame =>
    obtain ⟨hconfig, hresolver⟩ := handle_heeds e frame
    exact ⟨hconfig, congrArg Resolver.known? hresolver⟩
  | flush => exact knows_of_settled (fun _ _ => settled_aside.flush) e hrest
  | receive buffer => exact hrest
  | outside o => exact hrest

theorem Use.apply_resolved (use : Use L) (now : Nat) (e : Endpoint L) (mac : Mac) :
    (use.apply now e).resolver.state = .resolved mac ↔ e.resolver.state = .resolved mac ∨
      ∃ frame tidings, use = .inbound frame ∧ e.config.tidings? frame = some tidings ∧
        e.resolver.Believes mac tidings := by
  have hknown := (use.apply_knows now e).2
  rw [← Resolver.known?_eq_some, hknown, Resolver.known?_eq_some, Resolver.heed_resolved]
  refine or_congr_right ?_
  cases use <;> simp [Use.frame?]

/-- In a run of an endpoint a frame came in that said so, and the address was taken from it. -/
def Told (now : Nat) (e : Endpoint L) (uses : List (Nat × Use L)) (mac : Mac) (tidings : Tidings) :
    Prop :=
  ∃ pre elapsed frame post, uses = pre ++ (elapsed, .inbound frame) :: post ∧
    e.config.tidings? frame = some tidings ∧ (after now e pre).resolver.Believes mac tidings

theorem not_told_nil (now : Nat) (e : Endpoint L) (mac : Mac) (tidings : Tidings) :
    ¬ Told now e [] mac tidings := by
  rintro ⟨pre, elapsed, frame, post, huses, -⟩
  simp at huses

theorem told_cons {now elapsed : Nat} {e : Endpoint L} {use : Use L} {rest : List (Nat × Use L)}
    {mac : Mac} {tidings : Tidings} :
    Told now e ((elapsed, use) :: rest) mac tidings ↔
      (∃ frame, use = .inbound frame ∧ e.config.tidings? frame = some tidings ∧
        e.resolver.Believes mac tidings) ∨
      Told (now + elapsed) (use.apply (now + elapsed) e) rest mac tidings := by
  have hconfig := (use.apply_knows (now + elapsed) e).1
  constructor
  · rintro ⟨pre, elapsed', frame, post, huses, htidings, hbelieves⟩
    cases pre with
    | nil =>
      obtain ⟨⟨rfl, rfl⟩, rfl⟩ := List.cons.inj huses
      exact Or.inl ⟨frame, rfl, htidings, hbelieves⟩
    | cons moment pre =>
      obtain ⟨rfl, rfl⟩ := List.cons.inj huses
      exact Or.inr ⟨pre, elapsed', frame, post, rfl, hconfig ▸ htidings, hbelieves⟩
  · rintro (⟨frame, rfl, htidings, hbelieves⟩ |
      ⟨pre, elapsed', frame, post, rfl, htidings, hbelieves⟩)
    · exact ⟨[], elapsed, frame, rest, rfl, htidings, hbelieves⟩
    · exact ⟨(elapsed, use) :: pre, elapsed', frame, post, rfl, hconfig ▸ htidings, hbelieves⟩

/-- What is known at the end of a run was known from the start or told during it. -/
theorem after_resolved (uses : List (Nat × Use L)) (now : Nat) (e : Endpoint L) (mac : Mac) :
    (after now e uses).resolver.state = .resolved mac ↔
      e.resolver.state = .resolved mac ∨ ∃ tidings, Told now e uses mac tidings := by
  induction uses generalizing now e with
  | nil => simp [after, not_told_nil]
  | cons moment rest ih =>
    obtain ⟨elapsed, use⟩ := moment
    rw [after, ih, use.apply_resolved]
    simp only [told_cons, exists_or, or_assoc]
    exact or_congr_right (or_congr_left exists_comm)

/-- Without an address that is configured, all that a run has resolved is usable, whichever way it
was learned, exactly as long as all the answers are that the run takes an address from.  What is
learned from the traffic of the peer always is. -/
theorem resolved_usable_iff (link : L) (config : Config) (hmac : config.targetMac = none)
    (start : Nat) (uses : List (Nat × Use L)) :
    (∀ mac, (after start (new link config) uses).resolver.state = .resolved mac → mac.IsUsable) ↔
      ∀ ip mac, Told start (new link config) uses mac (.answer ip mac) → mac.IsUsable := by
  have hstart : ∀ mac, (new link config).resolver.state ≠ .resolved mac := by
    intro mac
    simp [new, hmac, Resolver.new]
  constructor
  · intro husable ip mac htold
    exact husable mac ((after_resolved uses start _ mac).mpr (Or.inr ⟨_, htold⟩))
  · intro hanswers mac hresolved
    obtain ⟨tidings, pre, elapsed, frame, post, huses, htidings, hbelieves⟩ :=
      ((after_resolved uses start _ mac).mp hresolved).resolve_left (hstart mac)
    cases hbelieves with
    | answer hawaiting htarget =>
      exact hanswers _ mac ⟨pre, elapsed, frame, post, huses, htidings, .answer hawaiting htarget⟩
    | traffic hopen htarget husable => exact husable

namespace Inquiry

/-- An answer that says the peer is at the address of no card. -/
def forged : Bytes :=
  let question :=
    ArpPacket.request Mac.zero Ipv4Address.unspecified (Ipv4Address.ofBytes [10, 0, 0, 2])
  Header.encode (⟨Mac.zero, Mac.ofBytes [2, 0, 0, 0, 0, 6], etherTypeArp⟩ : EthernetHeader) ++
    Header.encode (question.reply Mac.zero)

def misled : List (Nat × Use MemoryLink) := [(0, datagram), (10, .inbound forged)]

/-- A datagram makes the endpoint ask, and the forged answer is believed. -/
theorem forged_answer_believed :
    Inquiry.config.targetMac = none ∧
      (after 0 (new link Inquiry.config) misled).resolver.state = .resolved Mac.zero ∧
      ¬ ∀ ip mac, Told 0 (new link Inquiry.config) misled mac (.answer ip mac) → mac.IsUsable := by
  have hresolved :
      (after 0 (new link Inquiry.config) misled).resolver.state = .resolved Mac.zero := by
    decide +kernel
  refine ⟨rfl, hresolved, fun hanswers => ?_⟩
  have husable : Mac.zero.IsUsable :=
    (resolved_usable_iff link Inquiry.config rfl 0 misled).mpr hanswers Mac.zero hresolved
  exact absurd rfl husable.2

end Inquiry

end Endpoint

end RomCast
