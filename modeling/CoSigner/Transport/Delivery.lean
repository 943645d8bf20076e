import CoSigner.Transport.Poll
import Mathlib.Data.List.Induction
import Mathlib.Data.List.Nodup
import Mathlib.Data.List.Sort
import Mathlib.Tactic.IntervalCases

/-! What a poller takes from a backend whose responses are pieces of one growing log: the log
itself, from its start, in order and without gaps. -/
namespace CoSigner.Transport
open Monolith Localrouter

/-- The backend's messages for a session, in the order of their delivery numbers. -/
structure MessageLog where
  entries : List InboundMessage
  ordered : entries.Pairwise (·.deliverySeq < ·.deliverySeq)
  positive : ∀ m ∈ entries, 0 < m.deliverySeq

/-- The entries a request may be answered with. -/
def MessageLog.after (log : MessageLog) (afterSeq : Nat) : List InboundMessage :=
  log.entries.filter (afterSeq < ·.deliverySeq)

/-- The number of the last message, and 0 if there is none. -/
def lastSeq (messages : List InboundMessage) : Nat := (messages.getLast?.map (·.deliverySeq)).getD 0

theorem lastSeq_concat (messages : List InboundMessage) (m : InboundMessage) :
    lastSeq (messages ++ [m]) = m.deliverySeq := by
  simp [lastSeq]

theorem le_lastSeq {messages : List InboundMessage}
    (ho : messages.Pairwise (·.deliverySeq < ·.deliverySeq)) {m : InboundMessage}
    (hm : m ∈ messages) : m.deliverySeq ≤ lastSeq messages := by
  induction messages using List.reverseRecOn with
  | nil => cases hm
  | append_singleton messages last _ =>
    rw [lastSeq_concat]
    obtain ⟨-,-,hlast⟩ := List.pairwise_append.mp ho
    cases List.mem_append.mp hm with
    | inl hm => exact Nat.le_of_lt (hlast m hm last List.mem_cons_self)
    | inr hm => exact (List.mem_singleton.mp hm) ▸ Nat.le_refl _

namespace MessageLog
variable (log : MessageLog)

theorem lastSeq_lt {n : Nat} {m : InboundMessage} (hm : m ∈ log.entries.drop n) :
    lastSeq (log.entries.take n) < m.deliverySeq := by
  cases hlast : (log.entries.take n).getLast? with
  | none =>
    simp only [lastSeq, hlast]
    exact log.positive m (List.mem_of_mem_drop hm)
  | some last =>
    simp only [lastSeq, hlast]
    have ho := log.ordered
    rw [← List.take_append_drop n log.entries] at ho
    exact (List.pairwise_append.mp ho).2.2 last (List.mem_of_getLast? hlast) m hm

theorem after_lastSeq (n : Nat) :
    log.after (lastSeq (log.entries.take n)) = log.entries.drop n := by
  have htake : (log.entries.take n).filter
      (fun m => decide (lastSeq (log.entries.take n) < m.deliverySeq)) = [] := by
    refine List.filter_eq_nil_iff.mpr ?_
    intro m hm
    have := le_lastSeq (log.ordered.sublist (List.take_sublist n _)) hm
    simpa using this
  have hdrop : (log.entries.drop n).filter
      (fun m => decide (lastSeq (log.entries.take n) < m.deliverySeq)) = log.entries.drop n :=
    List.filter_eq_self.mpr fun m hm => by simpa using log.lastSeq_lt hm
  conv => lhs; rw [after, ← List.take_append_drop n log.entries, List.filter_append]
  simp only [List.take_append_drop]
  rw [htake, hdrop, List.nil_append]

theorem mergeSort_perm {messages piece : List InboundMessage} (hp : messages.Perm piece)
    (hsub : piece.Sublist log.entries) :
    (messages.mergeSort fun m n => m.deliverySeq ≤ n.deliverySeq) = piece := by
  have hordered := log.ordered.sublist hsub
  have hperm := (List.mergeSort_perm messages fun m n => m.deliverySeq ≤ n.deliverySeq).trans hp
  have hsorted := @List.pairwise_mergeSort InboundMessage
    (fun m n => decide (m.deliverySeq ≤ n.deliverySeq))
    (fun a b c hab hbc => by simp only [decide_eq_true_eq] at hab hbc ⊢; omega)
    (fun a b => by simp only [Bool.or_eq_true, decide_eq_true_eq]; omega) messages
  have hdistinct : (piece.map (·.deliverySeq)).Nodup :=
    (List.pairwise_map.mpr hordered).imp Nat.ne_of_lt
  refine hperm.eq_of_pairwise ?_ hsorted (hordered.imp fun h => by simpa using Nat.le_of_lt h)
  intro a b ha hb hab hba
  simp only [decide_eq_true_eq] at hab hba
  exact List.inj_on_of_nodup_map hdistinct (hperm.mem_iff.mp ha) hb (Nat.le_antisymm hab hba)

end MessageLog

variable {κ : Type}

/-- The frames put into the inbound queue. -/
def taken (h : List (TransportEvent κ)) : List Frame :=
  h.filterMap fun
    | ⟨.enqueue frame,(accepted : Bool)⟩ => if accepted then some frame else none
    | _ => none

namespace FrameContext
variable {ctx : FrameContext} {log : MessageLog}

/-- The frame has every field of the message, in the session of the context. -/
structure Carries (ctx : FrameContext) (frame : Frame) (msg : InboundMessage) : Prop where
  sessionID : frame.sessionID = ctx.sessionID
  stage : frame.stage = ctx.stage
  protocol : frame.protocol = ctx.protocol
  messageID : frame.messageID = msg.messageID
  seq : frame.seq = msg.protocolSeq
  round : frame.round = msg.round ∧ frame.roundHint = msg.round
  broadcast : frame.broadcast = msg.broadcast
  fromParty : frame.fromParty = msg.fromPartyID
  toParty : frame.toParty = msg.toPartyID
  payload : frame.payload = msg.payload
  derivationContextHash : frame.derivationContextHash = msg.derivationContextHash
  unset : frame.messageType = [] ∧ frame.payloadHash = []

theorem toFrame_carries (ctx : FrameContext) (msg : InboundMessage) :
    ctx.Carries (ctx.toFrame msg) msg := by
  constructor <;> simp [toFrame]

/-- The first `n` entries of the log have been taken, and nothing else. -/
structure Took (ctx : FrameContext) (log : MessageLog) (n : Nat) (h : List (TransportEvent κ)) :
    Prop where
  within : n ≤ log.entries.length
  frames : taken h = (log.entries.take n).map ctx.toFrame

/-- Responses are pieces of the log. -/
def Truthful (log : MessageLog) : (o : TransportOp κ) → o.Ans → Prop
  | .getMessages afterSeq, (.ok result : Except TransportError MessagesResult) =>
      ∃ k, result.messages.Perm ((log.after afterSeq).take k)
  | _, _ => True

/-- The poller asks for what lies behind the last entry it has taken, and takes the next one. -/
def AsksOn (ctx : FrameContext) (log : MessageLog) :
    TransportOp κ → List (TransportEvent κ) → Prop
  | .getMessages afterSeq, h => ∃ n, ctx.Took log n h ∧ afterSeq = lastSeq (log.entries.take n)
  | .enqueue frame, h => ∃ n, ctx.Took log n h ∧
      ∃ hn : n < log.entries.length, frame = ctx.toFrame log.entries[n]
  | _, h => ∃ n, ctx.Took log n h

abbrev deliveryDiscipline (ctx : FrameContext) (log : MessageLog) :
    Discipline (TransportOp κ) TransportOp.Ans (List (TransportEvent κ)) :=
  Prog.tracing (Truthful log) (ctx.AsksOn log)

theorem Took.other {n : Nat} {h : List (TransportEvent κ)} (ht : ctx.Took log n h)
    {e : TransportEvent κ} (he : taken [e] = []) : ctx.Took log n (h ++ [e]) := by
  refine ⟨ht.within,?_⟩
  have happ : taken (h ++ [e]) = taken h ++ taken [e] := List.filterMap_append
  rw [happ, he, List.append_nil, ht.frames]

theorem Took.next {n : Nat} {h : List (TransportEvent κ)} (ht : ctx.Took log n h)
    (hn : n < log.entries.length) :
    ctx.Took log (n + 1) (h ++ [⟨.enqueue (ctx.toFrame log.entries[n]),true⟩]) := by
  refine ⟨hn,?_⟩
  have happ : taken (h ++ [⟨.enqueue (ctx.toFrame log.entries[n]),true⟩]) =
      taken h ++ [ctx.toFrame log.entries[n]] := List.filterMap_append
  rw [happ, ht.frames, List.take_succ_eq_append_getElem hn, List.map_append, List.map_singleton]

theorem lastSeq_next {n : Nat} (hn : n < log.entries.length) :
    max (lastSeq (log.entries.take n)) log.entries[n].deliverySeq =
      lastSeq (log.entries.take (n + 1)) := by
  have hmem : log.entries[n] ∈ log.entries.drop n := by
    rw [List.drop_eq_getElem_cons hn]
    exact List.mem_cons_self
  rw [List.take_succ_eq_append_getElem hn, lastSeq_concat]
  exact Nat.max_eq_right (Nat.le_of_lt (log.lastSeq_lt hmem))

/-- Delivering the next entries of the log takes a part of them from their start, and ends
behind the last one taken. -/
theorem deliver_next (k : Nat) {n : Nat} {h : List (TransportEvent κ)} (ht : ctx.Took log n h) :
    (ctx.deliver ((log.entries.drop n).take k) (lastSeq (log.entries.take n)) :
        TransportProg κ (Nat × Bool)).Meets (ctx.deliveryDiscipline log)
      (fun outcome t => ∃ n', ctx.Took log n' t ∧
        (outcome.2 = true → outcome.1 = lastSeq (log.entries.take n'))) h := by
  induction k generalizing n h with
  | zero => exact Prog.meets_pure ⟨n,ht,fun _ => rfl⟩
  | succ k ih =>
    by_cases hn : n < log.entries.length
    · rw [List.drop_eq_getElem_cons hn, List.take_succ_cons]
      refine Prog.meets_perform ⟨n,ht,hn,rfl⟩ ?_
      intro (accepted : Bool) _
      cases accepted with
      | true =>
        have hrest := ih (ht.next hn)
        rw [← lastSeq_next hn] at hrest
        exact hrest
      | false => exact Prog.meets_pure ⟨n,ht.other rfl,by simp⟩
    · rw [List.drop_of_length_le (Nat.le_of_not_lt hn), List.take_nil]
      exact Prog.meets_pure ⟨n,ht,fun _ => rfl⟩

theorem deliverMessages_next {messages : List InboundMessage} {n : Nat}
    (hm : ∃ k, messages.Perm ((log.after (lastSeq (log.entries.take n))).take k))
    {h : List (TransportEvent κ)} (ht : ctx.Took log n h) :
    (ctx.deliverMessages messages (lastSeq (log.entries.take n)) :
        TransportProg κ (Nat × Bool)).Meets (ctx.deliveryDiscipline log)
      (fun outcome t => ∃ n', ctx.Took log n' t ∧
        (outcome.2 = true → outcome.1 = lastSeq (log.entries.take n'))) h := by
  obtain ⟨k,hperm⟩ := hm
  rw [log.after_lastSeq] at hperm
  have hsub : ((log.entries.drop n).take k).Sublist log.entries :=
    (List.take_sublist _ _).trans (List.drop_sublist _ _)
  rw [deliverMessages, log.mergeSort_perm hperm hsub]
  exact deliver_next k ht

theorem pollFrom_next (turns : Nat) (baseline : SessionLifecycle) {n : Nat}
    {h : List (TransportEvent κ)} (ht : ctx.Took log n h) :
    (ctx.pollFrom turns baseline (lastSeq (log.entries.take n)) : TransportProg κ Unit).Meets
      (ctx.deliveryDiscipline log) (fun _ t => ∃ n', ctx.Took log n' t) h := by
  induction turns generalizing baseline n h with
  | zero => trivial
  | succ turns ih =>
    refine Prog.meets_perform ⟨n,ht⟩ ?_
    intro (done : Bool) _
    have ht₁ : ctx.Took log n (h ++ [⟨.isDone,done⟩]) := ht.other rfl
    cases done with
    | true => exact Prog.meets_pure ⟨n,ht₁⟩
    | false =>
      refine Prog.meets_perform ⟨n,ht₁,rfl⟩ ?_
      intro (response : Except TransportError MessagesResult) htruth
      have ht₂ := ht₁.other (e := ⟨.getMessages (lastSeq (log.entries.take n)),response⟩) rfl
      refine Prog.meets_perform ⟨n,ht₂⟩ ?_
      intro (done : Bool) _
      have ht₃ := ht₂.other (e := ⟨.isDone,done⟩) rfl
      cases done with
      | true => exact Prog.meets_pure ⟨n,ht₃⟩
      | false =>
        cases response with
        | error err =>
          show Prog.Meets _ (if err = .invalidLifecycle then _ else _) _ _
          by_cases herr : err = .invalidLifecycle
          · rw [if_pos herr]
            refine Prog.meets_perform ⟨n,ht₃⟩ ?_
            intro (effect : Bool) _
            exact Prog.meets_pure ⟨n,ht₃.other rfl⟩
          · rw [if_neg herr]
            refine Prog.meets_perform ⟨n,ht₃⟩ ?_
            intro (awake : Bool) _
            cases awake with
            | true => exact ih baseline (ht₃.other rfl)
            | false => exact Prog.meets_pure ⟨n,ht₃.other rfl⟩
        | ok result =>
          refine Prog.meets_perform ⟨n,ht₃⟩ ?_
          intro (now : Time) _
          have ht₄ := ht₃.other (e := ⟨.now,now⟩) rfl
          show Prog.Meets _ (if (!_) = true then _ else _) _ _
          split
          · refine Prog.meets_perform ⟨n,ht₄⟩ ?_
            intro (effect : Bool) _
            exact Prog.meets_pure ⟨n,ht₄.other rfl⟩
          · refine Prog.meets_bind ((deliverMessages_next htruth ht₄).mono ?_)
            intro outcome t _ hdelivered
            obtain ⟨afterSeq,delivered⟩ := outcome
            obtain ⟨n',ht',hafter⟩ := hdelivered
            cases delivered with
            | false => exact Prog.meets_pure ⟨n',ht'⟩
            | true =>
              obtain rfl := hafter rfl
              show Prog.Meets _ (if result.messages.isEmpty = true then _ else _) _ _
              split
              · refine Prog.meets_perform ⟨n',ht'⟩ ?_
                intro (awake : Bool) _
                cases awake with
                | true => exact ih result.session (ht'.other rfl)
                | false => exact Prog.meets_pure ⟨n',ht'.other rfl⟩
              · exact ih result.session ht'

theorem Took.length {n : Nat} {h : List (TransportEvent κ)} (ht : ctx.Took log n h) :
    (taken h).length = n := by
  rw [ht.frames, List.length_map, List.length_take]
  exact Nat.min_eq_left ht.within

theorem AsksOn.took {h : List (TransportEvent κ)} {e : TransportEvent κ}
    (he : ctx.AsksOn log e.1 h) : ∃ n, ctx.Took log n (h ++ [e]) := by
  obtain ⟨o,r⟩ := e
  cases o with
  | enqueue frame =>
    obtain ⟨n,ht,hn,rfl⟩ := he
    cases r with
    | true => exact ⟨n + 1,ht.next hn⟩
    | false => exact ⟨n,ht.other rfl⟩
  | getMessages afterSeq =>
    obtain ⟨n,ht,-⟩ := he
    exact ⟨n,ht.other rfl⟩
  | _ =>
    obtain ⟨n,ht⟩ := he
    exact ⟨n,ht.other rfl⟩

theorem took_start : ctx.Took log 0 ([] : List (TransportEvent κ)) := ⟨Nat.zero_le _,rfl⟩

theorem poll_meets (turns : Nat) : (ctx.poll turns : TransportProg κ Unit).Meets
    (ctx.deliveryDiscipline log) (fun _ t => ∃ n, ctx.Took log n t) [] :=
  pollFrom_next turns ctx.session took_start

theorem took_of_run {turns : Nat} {h : List (TransportEvent κ)} {q : TransportProg κ Unit}
    (hrun : (ctx.poll turns : TransportProg κ Unit).After h q)
    (henv : ∀ e ∈ h, Truthful log e.1 e.2) : ∃ n, ctx.Took log n h := by
  cases h using List.reverseRecOn with
  | nil => exact ⟨0,took_start⟩
  | append_singleton h e =>
    exact AsksOn.took (((poll_meets turns).after hrun henv).2 h e [] rfl)

end FrameContext

theorem entries_grow {log : Nat → MessageLog}
    (hgrows : ∀ n, (log n).entries <+: (log (n + 1)).entries) {m n : Nat} (hmn : m ≤ n) :
    (log m).entries <+: (log n).entries := by
  induction hmn with
  | refl => exact List.prefix_rfl
  | step _ ih => exact ih.trans (hgrows _)

namespace FrameContext
variable {ctx : FrameContext} {log : Nat → MessageLog}

/-- Each response in the history is a piece of the log as it was then. -/
def Answered (log : Nat → MessageLog) (h : List (TransportEvent κ)) : Prop :=
  ∀ h₁ afterSeq result h₂, h = h₁ ++ ⟨.getMessages afterSeq,.ok result⟩ :: h₂ →
    ∃ k, result.messages.Perm (((log h₁.length).after afterSeq).take k)

theorem Answered.truthful (hgrows : ∀ n, (log n).entries <+: (log (n + 1)).entries)
    {h : List (TransportEvent κ)} (ha : Answered log h) :
    ∀ e ∈ h, Truthful (log h.length) e.1 e.2 := by
  intro e he
  obtain ⟨h₁,h₂,rfl⟩ := List.append_of_mem he
  obtain ⟨o,r⟩ := e
  cases o with
  | getMessages afterSeq =>
    cases r with
    | error err => trivial
    | ok result =>
      obtain ⟨k,hk⟩ := ha h₁ afterSeq result h₂ rfl
      have hlog := entries_grow hgrows
        (show h₁.length ≤ (h₁ ++ ⟨.getMessages afterSeq,.ok result⟩ :: h₂).length by simp)
      have hpiece := (List.take_prefix k _).trans
        (hlog.filter fun m => decide (afterSeq < m.deliverySeq))
      rw [MessageLog.after, List.prefix_iff_eq_take.mp hpiece] at hk
      exact ⟨_,hk⟩
  | _ => trivial

theorem Answered.earlier {h₁ h₂ : List (TransportEvent κ)} (ha : Answered log (h₁ ++ h₂)) :
    Answered log h₁ := by
  rintro h₃ afterSeq result h₄ rfl
  exact ha h₃ afterSeq result (h₄ ++ h₂) (by simp)

theorem asks_behind (hgrows : ∀ n, (log n).entries <+: (log (n + 1)).entries) {turns : Nat}
    {h : List (TransportEvent κ)} {afterSeq : Nat}
    {k : Except TransportError MessagesResult → TransportProg κ Unit}
    (hrun : (ctx.poll turns : TransportProg κ Unit).After h (.call (.getMessages afterSeq) k))
    (ha : Answered log h) :
    afterSeq = lastSeq ((log h.length).entries.take (taken h).length) := by
  obtain ⟨n,ht,hafter⟩ := (poll_meets turns).awaits hrun (ha.truthful hgrows)
  rw [show (taken h).length = n from ht.length]
  exact hafter

theorem Took.carries {log : MessageLog} {n : Nat} {h : List (TransportEvent κ)}
    (ht : ctx.Took log n h) :
    List.Forall₂ ctx.Carries (taken h) (log.entries.take (taken h).length) := by
  rw [ht.length, ht.frames, List.forall₂_map_left_iff]
  exact List.forall₂_same.mpr fun msg _ => ctx.toFrame_carries msg

/-- A backend that answers with pieces of a log growing at its end has a first part of that log
taken, in its order and each entry once with all its fields; and each request asks for what lies
behind the last entry taken. -/
theorem poll_takes_log (hgrows : ∀ n, (log n).entries <+: (log (n + 1)).entries) {turns : Nat}
    {h : List (TransportEvent κ)} {q : TransportProg κ Unit}
    (hrun : (ctx.poll turns : TransportProg κ Unit).After h q) (ha : Answered log h) :
    List.Forall₂ ctx.Carries (taken h) ((log h.length).entries.take (taken h).length) ∧
      (∀ h₁ afterSeq response h₂, h = h₁ ++ ⟨.getMessages afterSeq,response⟩ :: h₂ →
        afterSeq = lastSeq ((log h₁.length).entries.take (taken h₁).length)) ∧
      ∀ afterSeq k, q = .call (.getMessages afterSeq) k →
        afterSeq = lastSeq ((log h.length).entries.take (taken h).length) := by
  refine ⟨?_,?_,?_⟩
  · obtain ⟨n,ht⟩ := took_of_run hrun (ha.truthful hgrows)
    exact ht.carries
  · rintro h₁ afterSeq response h₂ rfl
    obtain ⟨k,hcall⟩ := hrun.call_of_mem
    exact asks_behind hgrows hcall ha.earlier
  · rintro afterSeq k rfl
    exact asks_behind hgrows hrun ha

end FrameContext

/-! A log of three entries, the last of which appears while the poller is running. -/

def greeting (deliverySeq protocolSeq : Nat) : InboundMessage where
  deliverySeq := deliverySeq
  protocolSeq := protocolSeq
  messageID := ascii "m-" ++ [0x30 + protocolSeq.toUInt8]
  round := 2
  fromPartyID := ascii "mpc-signer"
  toPartyID := ascii "co-signer-primary"
  payload := [protocolSeq.toUInt8]

def firstGreetings : MessageLog :=
  ⟨[greeting 3 1,greeting 7 2],by simp [greeting],by simp [greeting]⟩

def allGreetings : MessageLog :=
  ⟨[greeting 3 1,greeting 7 2,greeting 12 3],by simp [greeting],by simp [greeting]⟩

def greetings (n : Nat) : MessageLog := if n ≤ 8 then firstGreetings else allGreetings

def dkgSession : SessionLifecycle :=
  { sessionID := ascii "s", status := ascii "RUNNING", startedAt := some (Time.unixEpoch + 1),
    deadline := Time.unixEpoch + 1000 }

def dkgContext : FrameContext :=
  { session := dkgSession, sessionID := ascii "s", stage := ascii "DKG" }

/-- The request fails, is answered with two messages out of order, and then with the last. -/
def greetingRun : List (TransportEvent Unit) :=
  [⟨.isDone,false⟩,⟨.getMessages 0,.error (.other [])⟩,⟨.isDone,false⟩,⟨.sleep,true⟩,
    ⟨.isDone,false⟩,⟨.getMessages 0,.ok ⟨dkgSession,[greeting 7 2,greeting 3 1]⟩⟩,
    ⟨.isDone,false⟩,⟨.now,Time.unixEpoch + 2⟩,
    ⟨.enqueue (dkgContext.toFrame (greeting 3 1)),true⟩,
    ⟨.enqueue (dkgContext.toFrame (greeting 7 2)),true⟩,
    ⟨.isDone,false⟩,⟨.getMessages 7,.ok ⟨dkgSession,[greeting 12 3]⟩⟩,
    ⟨.isDone,false⟩,⟨.now,Time.unixEpoch + 3⟩,
    ⟨.enqueue (dkgContext.toFrame (greeting 12 3)),true⟩,⟨.isDone,false⟩]

theorem greetings_grow (n : Nat) : (greetings n).entries <+: (greetings (n + 1)).entries := by
  by_cases hn : n + 1 ≤ 8
  · simp [greetings, hn, Nat.le_of_succ_le hn]
  · by_cases hle : n ≤ 8
    · simp [greetings, hn, hle, firstGreetings, allGreetings]
    · simp [greetings, hn, hle]

namespace FrameContext

theorem answered_run (h : List (TransportEvent κ)) (hh : ∀ n (hn : n < h.length) afterSeq result,
    h[n] = ⟨.getMessages afterSeq,.ok result⟩ →
      ∃ k, result.messages.Perm (((log n).after afterSeq).take k)) : Answered log h := by
  rintro h₁ afterSeq result h₂ rfl
  exact hh h₁.length (by simp) afterSeq result (by simp)

theorem greetingRun_answered : Answered greetings greetingRun := by
  apply answered_run
  intro n hn afterSeq result h
  have hlt : n < 16 := hn
  interval_cases n
  case «5» =>
    cases h
    exact ⟨2,.swap _ _ _⟩
  case «11» =>
    cases h
    exact ⟨1,.refl _⟩
  all_goals cases h

theorem greetingRun_run :
    ∃ q, (dkgContext.poll 4 : TransportProg Unit Unit).After greetingRun q := by
  have hsorted : ([greeting 7 2,greeting 3 1].mergeSort fun m n => m.deliverySeq ≤ n.deliverySeq) =
      [greeting 3 1,greeting 7 2] :=
    firstGreetings.mergeSort_perm (.swap _ _ _) (.refl _)
  apply Exists.intro
  iterate 8 apply Prog.After.call
  simp only [Prog.bind]
  rw [if_neg (by decide), deliverMessages, hsorted]
  iterate 6 apply Prog.After.call
  simp only [Prog.bind]
  rw [if_neg (by decide), deliverMessages, List.mergeSort_singleton]
  exact .call (.call (.start _))

theorem greeting_taken : ∃ q, (dkgContext.poll 4).After greetingRun q ∧
    List.Forall₂ dkgContext.Carries (taken greetingRun)
      [greeting 3 1,greeting 7 2,greeting 12 3] ∧
    ∀ h₁ afterSeq response h₂, greetingRun = h₁ ++ ⟨.getMessages afterSeq,response⟩ :: h₂ →
      afterSeq = lastSeq ((greetings h₁.length).entries.take (taken h₁).length) := by
  obtain ⟨q,hrun⟩ := greetingRun_run
  obtain ⟨hcarries,hasks,-⟩ := poll_takes_log greetings_grow hrun greetingRun_answered
  exact ⟨q,hrun,hcarries,hasks⟩

end FrameContext
end CoSigner.Transport
