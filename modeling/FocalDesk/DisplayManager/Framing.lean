import FocalDesk.DisplayManager.Greeter

/-! Whether the requests that the display manager handles are those that the greeter sent. -/
namespace FocalDesk.DisplayManager
open Library List Option

variable {decode : List UInt8 → Option Request} {greeter next : Greeter} {recv : Recv}
  {taken more : List UInt8} {sent : List (List UInt8)}

/-! The future of `recv`. -/

/-- The bytes that an unfinished future has taken from the stream. -/
inductive Recv.Holds : Recv → List UInt8 → Prop where
  | len (bytes : List UInt8) (hlength : bytes.length < 4) : Holds (.len bytes) bytes
  | body (head bytes : List UInt8) (hhead : head.length = 4)
      (hbytes : bytes.length < leValue head) : Holds (.body (leValue head) bytes) (head ++ bytes)

theorem Recv.Holds.pending (h : recv.Holds taken) (hm : more.length ≤ recv.wanted) {after : Recv}
    (hr : recv.read more = .pending after) : after.Holds (taken ++ more) := by
  cases h with
  | len bytes hl =>
    simp only [Recv.wanted] at hm
    simp only [Recv.read] at hr
    split at hr
    · rename_i hs
      cases hr
      exact .len _ hs
    · rename_i hf
      have hh : (taken ++ more).length = 4 := by
        rw [length_append] at hf ⊢
        omega
      split at hr
      · cases hr
      · split at hr
        · cases hr
        · rename_i hso
          cases hr
          have hb := Recv.Holds.body (taken ++ more) [] hh (Nat.pos_of_ne_zero hso)
          rwa [append_nil] at hb
  | body head bytes hh hby =>
    simp only [Recv.read] at hr
    split at hr
    · rename_i hs
      cases hr
      rw [append_assoc]
      exact .body head (bytes ++ more) hh hs
    · cases hr

variable {body : List UInt8}

/-- A future that is ready has taken a length and a body of that length. -/
theorem Recv.Holds.ready (h : recv.Holds taken) (hm : more.length ≤ recv.wanted)
    (hr : recv.read more = .ready body) :
    ∃ head, head.length = 4 ∧ leValue head = body.length ∧ taken ++ more = head ++ body := by
  cases h with
  | len bytes hl =>
    simp only [Recv.wanted] at hm
    simp only [Recv.read] at hr
    split at hr
    · cases hr
    · rename_i hf
      split at hr
      · cases hr
      · split at hr
        · rename_i hz
          cases hr
          refine ⟨taken ++ more, ?_, hz, (append_nil _).symm⟩
          rw [length_append] at hf ⊢
          omega
        · cases hr
  | body head bytes hh hb =>
    simp only [Recv.wanted] at hm
    simp only [Recv.read] at hr
    split at hr
    · cases hr
    · rename_i hf
      cases hr
      refine ⟨head, hh, ?_, append_assoc _ _ _⟩
      rw [length_append] at hf ⊢
      omega

/-- The next frame of a stream of frames is the one that was read. -/
theorem frames_eq_cons {rest : List (List UInt8)} {head tail : List UInt8}
    (hh : head.length = 4) (hb : leValue head = body.length)
    (hs : ∀ body ∈ rest, body.length < 2 ^ 32) (h : head ++ body ++ tail = frames rest) :
    ∃ os, rest = body :: os ∧ tail = frames os := by
  cases rest with
  | nil =>
    have hl := congrArg List.length h
    simp only [length_append, frames_nil, length_nil] at hl
    omega
  | cons fst os =>
    rw [frames_cons, frame, append_assoc, append_assoc] at h
    obtain ⟨hle, h⟩ := append_inj h (by rw [hh, length_leBytes])
    have hf : fst.length < 256 ^ 4 := hs fst mem_cons_self
    rw [hle, leValue_leBytes hf] at hb
    obtain ⟨hsa, ht⟩ := append_inj h hb.symm
    exact ⟨os, by rw [hsa], ht⟩

/-! What a step leaves of the stream and of the requests. -/

namespace Greeter

/-- The bytes that were not read yet, and the requests that were handled. -/
def intake (greeter : Greeter) : List UInt8 × List Request :=
  (greeter.wire ++ greeter.coming, greeter.handled)

@[simp] theorem intake_setThread (tx : ℕ) (th : Thread) :
    (greeter.setThread tx th).intake = greeter.intake := rfl

@[simp] theorem intake_log (e : Entry) : (greeter.log e).intake = greeter.intake := rfl

@[simp] theorem intake_leave (res : GreeterPhase) :
    (greeter.leave res).intake = greeter.intake := rfl

@[simp] theorem intake_again : greeter.again.intake = greeter.intake := rfl

@[simp] theorem intake_send (sent : Bool) (e : Entry) :
    (greeter.send sent e).intake = greeter.intake := by
  unfold send
  split <;> simp

@[simp] theorem intake_dropReply : greeter.dropReply.intake = greeter.intake := by
  unfold dropReply
  split
  · rfl
  · dsimp only
    split <;> rfl

@[simp] theorem intake_clear : greeter.clear.intake = greeter.intake := by
  unfold clear
  split
  · exact intake_dropReply
  · exact intake_dropReply

@[simp] theorem intake_answer (text : String) : (greeter.answer text).intake = greeter.intake := by
  unfold answer
  split
  · rfl
  · dsimp only
    split <;> rfl

@[simp] theorem intake_createSession (username : String) (sent : Bool) :
    (greeter.createSession username sent).intake = greeter.intake := by
  unfold createSession
  split
  · exact intake_send _ _
  · rfl

@[simp] theorem intake_cancelSession : greeter.cancelSession.intake = greeter.intake := by
  unfold cancelSession
  split
  · exact intake_clear
  · exact intake_clear

theorem intake_handle (req : Request) (sent : Bool) : (greeter.handle req sent).intake =
    (greeter.wire ++ greeter.coming, greeter.handled ++ [req]) := by
  unfold handle
  dsimp only
  split
  · exact intake_createSession _ _
  · exact intake_answer _
  · exact intake_dropReply
  · exact intake_cancelSession
  · rfl

end Greeter

/-! Runs. -/

/-- The requests that were handled are the first ones of those sent, and as long as the loop goes
on the rest of the stream are the others. -/
structure InOrder (decode : List UInt8 → Option Request) (sent : List (List UInt8))
    (greeter : Greeter) : Prop where
  handled : greeter.handled.map some <+: sent.map decode
  aligned : greeter.result = none → ∃ done rest taken, sent = done ++ rest ∧
    greeter.handled.map some = done.map decode ∧ greeter.recv.Holds taken ∧
      taken ++ (greeter.wire ++ greeter.coming) = frames rest

/-- No branch is taken while a future of `recv` has a part of a frame. -/
def ReadsOut (greeter : Greeter) : Event → Prop
  | .prompt _ => greeter.recv = .start
  | .outcome _ => greeter.recv = .start
  | _ => True

/-- Nothing is read in a step, and the future of `recv` stays or has taken nothing. -/
theorem InOrder.keep (h : InOrder decode sent greeter) (hi : next.intake = greeter.intake)
    (hrs : next.result = none → greeter.result = none)
    (hr : next.recv = greeter.recv ∨ next.recv = .start ∧ greeter.recv = .start) :
    InOrder decode sent next := by
  obtain ⟨hre, hh⟩ := Prod.mk.injEq _ _ _ _ ▸ hi
  have hsa : next.recv = greeter.recv := hr.elim id fun hs => hs.1.trans hs.2.symm
  refine ⟨hh ▸ h.handled, fun hn => ?_⟩
  rw [hre, hh, hsa]
  exact h.aligned (hrs hn)

theorem InOrder.stop (h : InOrder decode sent greeter) (hh : next.handled = greeter.handled)
    (hr : next.result ≠ none) : InOrder decode sent next :=
  ⟨hh ▸ h.handled, fun hn => absurd hn hr⟩

theorem InOrder.pending (h : InOrder decode sent greeter) {n : ℕ} {recv : Recv}
    (hr : greeter.result = none) (hn : n ≤ greeter.recv.wanted)
    (hre : greeter.recv.read (greeter.wire.take n) = .pending recv) :
    InOrder decode sent { greeter with wire := greeter.wire.drop n, recv } := by
  obtain ⟨done, rest, taken, hse, hha, hh, hs⟩ := h.aligned hr
  have hm : (greeter.wire.take n).length ≤ greeter.recv.wanted := (length_take_le _ _).trans hn
  refine ⟨h.handled, fun _ => ⟨done, rest, taken ++ greeter.wire.take n, hse, hha,
    hh.pending hm hre, ?_⟩⟩
  rw [← hs]
  simp only [append_assoc, ← append_assoc (greeter.wire.take n), take_append_drop]

theorem InOrder.request (h : InOrder decode sent greeter) (hsm : ∀ body ∈ sent,
    body.length < 2 ^ 32) {n : ℕ} {req : Request} {ok : Bool}
    (hr : greeter.result = none) (hn : n ≤ greeter.recv.wanted)
    (hre : greeter.recv.read (greeter.wire.take n) = .ready body)
    (hd : decode body = some req) : InOrder decode sent
      (Greeter.handle { greeter with wire := greeter.wire.drop n } req ok).again := by
  obtain ⟨done, rest, taken, rfl, hha, hh, hs⟩ := h.aligned hr
  have hmo : (greeter.wire.take n).length ≤ greeter.recv.wanted := (length_take_le _ _).trans hn
  obtain ⟨head, hhe, hb, ht⟩ := hh.ready hmo hre
  have hf : head ++ body ++ (greeter.wire.drop n ++ greeter.coming) = frames rest := by
    rw [← ht, ← hs]
    simp only [append_assoc, ← append_assoc (greeter.wire.take n), take_append_drop]
  obtain ⟨os, rfl, hta⟩ := frames_eq_cons hhe hb
    (fun other ho => hsm other (mem_append_right done ho)) hf
  have hi :
      (Greeter.handle { greeter with wire := greeter.wire.drop n } req ok).intake =
        (greeter.wire.drop n ++ greeter.coming, greeter.handled ++ [req]) :=
    Greeter.intake_handle req ok
  obtain ⟨hrs, hno⟩ := Prod.mk.injEq _ _ _ _ ▸ hi
  have hm : (greeter.handled ++ [req]).map some = (done ++ [body]).map decode := by
    rw [map_append, map_append, hha, map_singleton, map_singleton, hd]
  refine ⟨?_, fun _ => ⟨done ++ [body], os, [], by simp, ?_, .len [] (by decide), ?_⟩⟩
  · rw [show Greeter.handled (Greeter.again _) = _ from hno, hm]
    exact ⟨os.map decode, by simp⟩
  · rw [show Greeter.handled (Greeter.again _) = _ from hno, hm]
  · rw [nil_append, ← hta]
    exact hrs

theorem inOrder_step (hs : ∀ body ∈ sent, body.length < 2 ^ 32) {ev : Event}
    (hst : greeter.step decode ev = some next) (he : ReadsOut greeter ev)
    (h : InOrder decode sent greeter) : InOrder decode sent next := by
  cases Greeter.moves_of_step hst with
  | arrived n =>
    refine h.keep ?_ id (.inl rfl)
    simp [Greeter.intake]
  | thread ev tx thread ht hco hm => exact h.keep rfl id (.inl rfl)
  | left ev wire res hr hrs => exact h.stop rfl (some_ne_none res)
  | pending n sent recv hr hn hw hre => exact h.pending hr hn hre
  | handled n sent body req hr hn hw hre hd =>
    exact h.request hs hr hn hre hd
  | shown sent tx prompt prompts hr hc hp =>
    refine h.keep ?_ (fun _ => hr) (.inr ⟨rfl, he⟩)
    rw [Greeter.intake_again, Greeter.intake_send]
    exact Greeter.intake_dropReply
  | succeeded tx hr hc ho =>
    exact h.stop rfl (some_ne_none _)
  | failed tx msg hr hc ho =>
    refine h.keep ?_ (fun _ => hr) (.inr ⟨rfl, he⟩)
    rw [Greeter.intake_again, Greeter.intake_clear, Greeter.intake_log]
  | gone tx hr hc ho => exact h.keep rfl id (.inl rfl)
  | panicked tx hr hc ho =>
    exact h.stop rfl (some_ne_none _)

theorem inOrder_start (decode : List UInt8 → Option Request) (sent : List (List UInt8)) :
    InOrder decode sent (.start (frames sent)) :=
  ⟨List.nil_prefix, fun _ => ⟨[], sent, [], rfl, rfl, .len [] (by decide), rfl⟩⟩

/-- The requests that are handled are the first ones that were sent, in their order, when no
branch is taken in the middle of a frame. -/
theorem requests_in_order (decode : List UInt8 → Option Request) (sent : List (List UInt8))
    (hsmall : ∀ body ∈ sent, body.length < 2 ^ 32) (events : List Event) (final : Greeter)
    (hevents : Meets (Greeter.step decode) ReadsOut (.start (frames sent)) events)
    (hrun : run (Greeter.step decode) (.start (frames sent)) events = some final) :
    final.handled.map some <+: sent.map decode :=
  (run_invariant_of_meets (inOrder_step hsmall) hevents hrun (inOrder_start decode sent)).handled

/-! A greeter that logs in, answers and cancels. -/

def textBytes (text : String) : List UInt8 := text.toList.map fun c => UInt8.ofNat c.toNat

def createText : List UInt8 :=
  textBytes "\x7b\"type\":\"create_session\",\"username\":\"ada\"\x7d"

def answerText : List UInt8 :=
  textBytes "\x7b\"type\":\"post_auth_response\",\"response\":\"pw\"\x7d"

def cancelText : List UInt8 := textBytes "\x7b\"type\":\"cancel_session\"\x7d"

/-- The three requests of this greeter are read. -/
def decodeText (body : List UInt8) : Option Request :=
  if body = createText then some (.createSession "ada")
  else if body = answerText then some (.postAuthResponse (some "pw"))
  else if body = cancelText then some .cancelSession
  else none

def logIn : List (List UInt8) := [createText, answerText, cancelText]

def readFrame (body : List UInt8) : List Event :=
  [.arrive (4 + body.length), .read 4 true, .read body.length true]

/-- PAM asks for a password, and the answer comes in one piece. -/
def calmLogIn : List Event :=
  readFrame createText ++ [.message 0 .secret "Password: " true, .prompt true] ++
    readFrame answerText ++ readFrame cancelText

instance (greeter : Greeter) : (event : Event) → Decidable (ReadsOut greeter event)
  | .prompt _ | .outcome _ => inferInstanceAs (Decidable (greeter.recv = .start))
  | .arrive _ | .read _ _ | .readFailed | .outcomeGone | .exited | .sigterm | .message _ _ _ _
  | .succeed _ | .fail _ _ | .vanish _ => isTrue trivial

theorem log_in_small : ∀ body ∈ logIn, body.length < 2 ^ 32 := by decide +kernel

theorem calm_log_in_handled : ∃ final : Greeter,
    run (Greeter.step decodeText) (.start (frames logIn)) calmLogIn = some final ∧
      final.handled = [.createSession "ada", .postAuthResponse (some "pw"), .cancelSession] ∧
        final.handled.map some <+: logIn.map decodeText := by
  have he : (checkedRun (Greeter.step decodeText) ReadsOut (.start (frames logIn))
      calmLogIn).any (fun final => decide (final.handled =
        [.createSession "ada", .postAuthResponse (some "pw"), .cancelSession])) = true := by
    decide +kernel
  obtain ⟨hm, final, hr, hh⟩ := exists_run_of_checked he
  exact ⟨final, hr, of_decide_eq_true hh,
    requests_in_order decodeText logIn log_in_small calmLogIn final hm hr⟩

/-- PAM says two things while the answer comes: all but its last byte is lost with the first one,
and that byte with the second. -/
def disturbedLogIn : List Event :=
  readFrame createText ++
    [.message 0 .info "Welcome" false, .message 0 .info "Last login: today" false,
      .arrive (answerText.length + 3), .read 4 true, .read (answerText.length - 1) true,
      .prompt true, .arrive 1, .read 1 true, .prompt true] ++ readFrame cancelText

/-- The answer is not handled, and the request after it is. -/
theorem answer_lost : ∃ final : Greeter,
    run (Greeter.step decodeText) (.start (frames logIn)) disturbedLogIn = some final ∧
      final.handled = [.createSession "ada", .cancelSession] ∧
        ¬ final.handled.map some <+: logIn.map decodeText := by
  have he : (run (Greeter.step decodeText) (.start (frames logIn)) disturbedLogIn).any
      (fun final => decide (final.handled = [.createSession "ada", .cancelSession] ∧
        ¬ final.handled.map some <+: logIn.map decodeText)) = true := by
    decide +kernel
  obtain ⟨final, hr, hl⟩ := exists_run_of_any he
  exact ⟨final, hr, of_decide_eq_true hl⟩

end FocalDesk.DisplayManager
