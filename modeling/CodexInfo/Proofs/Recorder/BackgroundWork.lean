import CodexInfo.Recorder.BackgroundWork

/-!
# `CodexInfo.Proofs.Recorder.BackgroundWork`: no job is lost, repeated or waited for

`Wired` and `Answering` hold in every state that some interleaving of the owner and the thread
reaches: there is at most one job, and while the owner holds its ends the flag `inFlight` says
whether there is one or the thread has just ended.

* `reached_kept`: both hold after every run.
* `backgroundWork_safe`: the results arrive once each, in the order of the requests, and neither
  party waits for room in a channel.
* `backgroundWork_answers`: by itself the thread takes a bounded number of steps, and then the
  owner's next look at the results ends the flight.
-/

set_option autoImplicit false

namespace CodexInfo.Recorder.BackgroundWork

open CodexInfo.Lib (Channel run run_invariant run_length_le)

variable {T : Type}

/-! ### What an observer counts, event by event -/

section
variable (seen : List (Event T))

@[simp] theorem observed_quiet :
    accepted (seen ++ [.quiet]) = accepted seen ∧ finished (seen ++ [.quiet]) = finished seen ∧
      panics (seen ++ [.quiet]) = panics seen ∧
      delivered (seen ++ [.quiet]) = delivered seen := by
  simp [accepted, finished, panics, delivered]

@[simp] theorem observed_requested (taken : Bool) :
    accepted (seen ++ [.requested taken]) = accepted seen + taken.toNat ∧
      finished (seen ++ [.requested taken]) = finished seen ∧
      panics (seen ++ [.requested taken]) = panics seen ∧
      delivered (seen ++ [.requested taken]) = delivered seen := by
  cases taken <;> simp [accepted, finished, panics, delivered]

@[simp] theorem observed_polled (result : Option T) :
    accepted (seen ++ [.polled result]) = accepted seen ∧
      finished (seen ++ [.polled result]) = finished seen ∧
      panics (seen ++ [.polled result]) = panics seen ∧
      delivered (seen ++ [.polled result]) = delivered seen ++ result.toList := by
  cases result <;> simp [accepted, finished, panics, delivered]

@[simp] theorem observed_result (result : T) :
    accepted (seen ++ [.worked (some result)]) = accepted seen ∧
      finished (seen ++ [.worked (some result)]) = finished seen ++ [result] ∧
      panics (seen ++ [.worked (some result)]) = panics seen ∧
      delivered (seen ++ [.worked (some result)]) = delivered seen := by
  simp [accepted, finished, panics, delivered]

@[simp] theorem observed_panic :
    accepted (seen ++ [.worked none]) = accepted seen ∧
      finished (seen ++ [.worked none]) = finished seen ∧
      panics (seen ++ [.worked none]) = panics seen + 1 ∧
      delivered (seen ++ [.worked none]) = delivered seen := by
  simp [accepted, finished, panics, delivered]

end

/-! ### The invariant -/

/-- How the two channels and the thread's loop stand to each other, also when the owner is
gone. -/
structure Wired (work : BackgroundWork T) : Prop where
  requestRoom : work.requests.capacity = 1
  resultRoom : work.results.capacity = 1
  single : work.jobs ≤ 1
  hearing : work.thread.ended = 0 → work.requests.receiver = true
  telling : work.thread.ended = 0 → work.results.sender = true

/-- What the owner's two flags say while it holds its ends. -/
structure Answering (seen : List (Event T)) (work : BackgroundWork T) : Prop where
  listening : work.results.receiver = true
  flags : work.inFlight.toNat + work.unavailable.toNat = work.jobs + work.thread.ended
  alone : work.jobs + work.thread.ended ≤ 1
  gone : work.unavailable.toNat ≤ work.thread.ended
  order : finished seen = delivered seen ++ work.results.queue ++ work.thread.unsent
  count : accepted seen = (delivered seen).length + work.jobs + panics seen
  panicked : panics seen = work.thread.ended

def Kept (seen : List (Event T)) (work : BackgroundWork T) : Prop :=
  work.Wired ∧ (work.held = true → Answering seen work)

theorem start_kept : Kept [] (start : BackgroundWork T) :=
  ⟨⟨rfl, rfl, Nat.zero_le _, fun _ => rfl, fun _ => rfl⟩,
    fun _ => ⟨rfl, rfl, Nat.zero_le _, Nat.le_refl _, rfl, rfl, rfl⟩⟩

theorem ended_le_one (thread : Thread T) : thread.ended ≤ 1 := by
  cases thread <;> simp [Thread.ended]

/-! ### The owner's calls -/

section
variable {seen : List (Event T)} {work : BackgroundWork T}

/-- While the invariant holds, the request finds room and a thread that will read it. -/
theorem request_eq (h : Kept seen work) (hheld : work.held = true) :
    ((work.inFlight || work.unavailable) = true ∧ work.request = (work, false)) ∨
      ((work.inFlight || work.unavailable) = false ∧
        ∃ requests, work.requests.Sent () requests ∧
          work.request = ({ work with requests, inFlight := true }, true)) := by
  cases hfree : work.inFlight || work.unavailable with
  | true => exact .inl ⟨rfl, by rw [request, if_pos hfree]⟩
  | false =>
      obtain ⟨hwired, hanswering⟩ := h
      have hflags := (hanswering hheld).flags
      rw [Bool.or_eq_false_iff] at hfree
      -- Without a job in flight, the request channel is empty and its receiver is there.
      simp only [hfree.1, hfree.2, Bool.toNat_false, BackgroundWork.jobs] at hflags
      refine .inr ⟨rfl, ?_⟩
      have hreceiver := hwired.hearing (by omega)
      have hroom := hwired.requestRoom
      rcases work.requests.trySend_cases () with ⟨next, hsend, hsent⟩ | ⟨-, -, hfull⟩ | ⟨-, hnone⟩
      · refine ⟨next, hsent, ?_⟩
        simp [request, hfree.1, hfree.2, hsend]
      · omega
      · rw [hreceiver] at hnone
        cases hnone

theorem request_kept (h : Kept seen work) (hheld : work.held = true) :
    Kept (seen ++ [.requested work.request.2]) work.request.1 := by
  have ⟨hwired, hanswering⟩ := h
  have ⟨hlistening, hflags, halone, hgone, horder, hcount, hpanicked⟩ := hanswering hheld
  rcases request_eq h hheld with ⟨-, heq⟩ | ⟨hfree, requests, hsent, heq⟩
  · rw [heq]
    exact ⟨hwired, fun _ => ⟨hlistening, hflags, halone, hgone, by simpa using horder,
      by simpa using hcount, by simpa using hpanicked⟩⟩
  · rw [heq]
    obtain ⟨hidle, havailable⟩ := Bool.or_eq_false_iff.mp hfree
    have hlength : requests.queue.length = work.requests.queue.length + 1 := by
      simp [hsent.queue]
    rw [hidle, havailable] at hflags
    simp only [jobs, Bool.toNat_false] at hflags hcount
    refine ⟨⟨hsent.capacity.trans hwired.requestRoom, hwired.resultRoom, ?_, fun hhere =>
      hsent.receiver.trans (hwired.hearing hhere), hwired.telling⟩,
      fun _ => ⟨hlistening, ?_, ?_, hgone, by simpa using horder, ?_,
        by simpa using hpanicked⟩⟩
    · simp only [jobs]
      omega
    · simp only [jobs, havailable, Bool.toNat_true, Bool.toNat_false]
      omega
    · simp only [jobs]
      omega
    · simp only [jobs, observed_requested, Bool.toNat_true]
      omega

/-- A result that is taken ends the flight. Without one the owner learns of the thread's end only
when the sender is gone. -/
theorem tryResult_eq (h : Kept seen work) :
    (∃ result results, work.results.Received result results ∧
        work.tryResult = ({ work with results, inFlight := false }, some result)) ∨
      (work.results.queue = [] ∧ work.results.sender = true ∧ work.tryResult = (work, none)) ∨
      (work.results.queue = [] ∧ work.thread.ended = 1 ∧
        work.tryResult = ({ work with inFlight := false, unavailable := true }, none)) := by
  rcases work.results.tryRecv_cases with
    ⟨result, results, hrecv, hreceived⟩ | ⟨hrecv, hempty, hsender⟩ | ⟨hrecv, hempty, hsender⟩
  · exact .inl ⟨result, results, hreceived, by rw [tryResult, hrecv]⟩
  · exact .inr (.inl ⟨hempty, hsender, by rw [tryResult, hrecv]⟩)
  · refine .inr (.inr ⟨hempty, ?_, by rw [tryResult, hrecv]⟩)
    have hended := ended_le_one work.thread
    by_contra hthread
    have htelling := h.1.telling (by omega)
    rw [hsender] at htelling
    cases htelling

theorem tryResult_kept (h : Kept seen work) (hheld : work.held = true) :
    Kept (seen ++ [.polled work.tryResult.2]) work.tryResult.1 := by
  have ⟨hwired, hanswering⟩ := h
  have ⟨hlistening, hflags, halone, hgone, horder, hcount, hpanicked⟩ := hanswering hheld
  rcases tryResult_eq h with
    ⟨result, results, hreceived, heq⟩ | ⟨-, -, heq⟩ | ⟨hempty, hended, heq⟩
  · have hlength : work.results.queue.length = results.queue.length + 1 := by
      simp [hreceived.queue]
    rw [heq]
    simp only [jobs] at hflags hcount halone
    -- The job that is answered was the only one.
    refine ⟨⟨hwired.requestRoom, hreceived.capacity.trans hwired.resultRoom, ?_,
      hwired.hearing, fun hhere => hreceived.sender.trans (hwired.telling hhere)⟩,
      fun _ => ⟨hreceived.receiver.trans hlistening, ?_, ?_, hgone, ?_, ?_,
        by simpa using hpanicked⟩⟩
    · simp only [jobs]
      omega
    · simp only [jobs, Bool.toNat_false]
      omega
    · simp only [jobs]
      omega
    · rw [hreceived.queue] at horder
      simpa using horder
    · simp only [jobs, observed_polled, Option.toList_some, List.length_append,
        List.length_singleton]
      omega
  · rw [heq]
    exact ⟨hwired, fun _ => ⟨hlistening, hflags, halone, hgone, by simpa using horder,
      by simpa using hcount, by simpa using hpanicked⟩⟩
  · rw [heq]
    have ⟨hrequest, hresult, hsingle, hhearing, htelling⟩ := hwired
    refine ⟨⟨hrequest, hresult, hsingle, hhearing, htelling⟩,
      fun _ => ⟨hlistening, ?_, halone, ?_, by simpa using horder, by simpa [jobs] using hcount,
        by simpa using hpanicked⟩⟩
    · simp only [jobs] at halone ⊢
      simp only [Bool.toNat_false, Bool.toNat_true]
      omega
    · simp only [Bool.toNat_true]
      omega

variable {next : BackgroundWork T}

/-- Once the owner is dropped, nothing is promised to it. -/
theorem releaseRequests_kept (h : Kept seen work) (hstep : work.releaseRequests = some next) :
    Kept (seen ++ [.quiet]) next := by
  obtain ⟨-, hnext⟩ := Option.ite_none_right_eq_some.mp hstep
  cases hnext
  have ⟨hrequest, hresult, hsingle, hhearing, htelling⟩ := h.1
  exact ⟨⟨hrequest, hresult, hsingle, hhearing, htelling⟩, fun hheld => by cases hheld⟩

theorem releaseResults_kept (h : Kept seen work) (hstep : work.releaseResults = some next) :
    Kept (seen ++ [.quiet]) next := by
  obtain ⟨hreleased, hnext⟩ := Option.ite_none_right_eq_some.mp hstep
  cases hnext
  have ⟨hrequest, hresult, hsingle, hhearing, htelling⟩ := h.1
  refine ⟨⟨hrequest, hresult, ?_, hhearing, htelling⟩, fun hheld => ?_⟩
  · simp only [jobs, Channel.dropReceiver_queue, List.length_nil] at hsingle ⊢
    omega
  · have hstill : work.held = true := hheld
    simp [hstill] at hreleased

/-! ### The thread's steps -/

theorem receive_cases (hstep : work.receive = some next) :
    work.thread = .receiving ∧
      ((work.held = false ∧ next = { work with thread := .leaving }) ∨
        ∃ requests, work.requests.Received () requests ∧
          next = { work with requests, thread := .working }) := by
  unfold receive at hstep
  cases hthread : work.thread with
  | receiving =>
      rw [hthread] at hstep
      rcases work.requests.recv_cases with
        ⟨_, requests, hrecv, hreceived⟩ | ⟨hrecv, -, -⟩ | ⟨hrecv, -, hsender⟩
      · simp only [hrecv] at hstep
        cases hstep
        exact ⟨rfl, .inr ⟨requests, hreceived, rfl⟩⟩
      · simp only [hrecv] at hstep
        cases hstep
      · simp only [hrecv] at hstep
        cases hstep
        exact ⟨rfl, .inl ⟨hsender, rfl⟩⟩
  | working | sending _ | leaving =>
      rw [hthread] at hstep
      cases hstep

theorem receive_kept (h : Kept seen work) (hstep : work.receive = some next) :
    Kept (seen ++ [.quiet]) next := by
  have ⟨⟨hrequest, hresult, hsingle, hhearing, htelling⟩, hanswering⟩ := h
  obtain ⟨hthread, ⟨hreleased, rfl⟩ | ⟨requests, hreceived, rfl⟩⟩ := receive_cases hstep
  · refine ⟨⟨hrequest, hresult, ?_, fun hhere => (by cases hhere), fun hhere => (by cases hhere)⟩,
      fun hheld => ?_⟩
    · simp only [jobs, hthread, Thread.busy] at hsingle ⊢
      omega
    · have hstill : work.held = true := hheld
      rw [hreleased] at hstill
      cases hstill
  · have ⟨hended, hbusy, hunsent⟩ :
        work.thread.ended = 0 ∧ work.thread.busy = 0 ∧ work.thread.unsent = [] := by
      rw [hthread]
      exact ⟨rfl, rfl, rfl⟩
    have hlength : work.requests.queue.length = requests.queue.length + 1 := by
      simp [hreceived.queue]
    refine ⟨⟨hreceived.capacity.trans hrequest, hresult, ?_,
      fun _ => hreceived.receiver.trans (hhearing hended), fun _ => htelling hended⟩,
      fun hheld => ?_⟩
    · simp only [jobs, Thread.busy] at hsingle ⊢
      omega
    · have hstill : work.held = true := hreceived.sender.symm.trans hheld
      have ⟨hlistening, hflags, halone, hgone, horder, hcount, hpanicked⟩ := hanswering hstill
      simp only [jobs] at hflags halone hcount
      rw [hunsent] at horder
      refine ⟨hlistening, ?_, ?_, ?_, by simpa [Thread.unsent] using horder, ?_, ?_⟩
      · simp only [jobs, Thread.busy, Thread.ended]
        omega
      · simp only [jobs, Thread.busy, Thread.ended]
        omega
      · exact le_of_le_of_eq hgone hended
      · simp only [jobs, Thread.busy, observed_quiet]
        omega
      · simp only [observed_quiet]
        exact hpanicked.trans hended

theorem finish_cases {outcome : Option T} (hstep : work.finish outcome = some next) :
    work.thread = .working ∧
      next = { work with thread := outcome.elim .leaving .sending } := by
  unfold finish at hstep
  cases hthread : work.thread with
  | working =>
      rw [hthread] at hstep
      cases outcome with
      | none =>
          cases hstep
          exact ⟨rfl, rfl⟩
      | some result =>
          cases hstep
          exact ⟨rfl, rfl⟩
  | receiving | sending _ | leaving =>
      rw [hthread] at hstep
      cases hstep

/-- A result waits to be sent. A panic loses the job, and the thread with it. -/
theorem finish_kept {outcome : Option T} (h : Kept seen work)
    (hstep : work.finish outcome = some next) : Kept (seen ++ [.worked outcome]) next := by
  have ⟨⟨hrequest, hresult, hsingle, hhearing, htelling⟩, hanswering⟩ := h
  obtain ⟨hthread, rfl⟩ := finish_cases hstep
  have ⟨hended, hbusy, hunsent⟩ :
      work.thread.ended = 0 ∧ work.thread.busy = 1 ∧ work.thread.unsent = [] := by
    rw [hthread]
    exact ⟨rfl, rfl, rfl⟩
  simp only [jobs] at hsingle
  cases outcome with
  | some result =>
      refine ⟨⟨hrequest, hresult, ?_, fun _ => hhearing hended, fun _ => htelling hended⟩,
        fun hheld => ?_⟩
      · simp only [jobs, Option.elim, Thread.busy]
        omega
      · have ⟨hlistening, hflags, halone, hgone, horder, hcount, hpanicked⟩ := hanswering hheld
        simp only [jobs] at hflags halone hcount
        have hempty : work.results.queue = [] := List.length_eq_zero_iff.mp (by omega)
        rw [hunsent] at horder
        refine ⟨hlistening, ?_, ?_, le_of_le_of_eq hgone hended, ?_, ?_, ?_⟩
        · simp only [jobs, Option.elim, Thread.busy, Thread.ended]
          omega
        · simp only [jobs, Option.elim, Thread.busy, Thread.ended]
          omega
        · simp [horder, hempty, Thread.unsent]
        · simp only [jobs, Option.elim, Thread.busy, observed_result]
          omega
        · simpa [Thread.ended] using hpanicked.trans hended
  | none =>
      refine ⟨⟨hrequest, hresult, ?_, fun hhere => (by cases hhere), fun hhere => (by cases hhere)⟩,
        fun hheld => ?_⟩
      · simp only [jobs, Option.elim, Thread.busy]
        omega
      · have ⟨hlistening, hflags, halone, hgone, horder, hcount, hpanicked⟩ := hanswering hheld
        simp only [jobs] at hflags halone hcount
        rw [hunsent] at horder
        refine ⟨hlistening, ?_, ?_, ?_, by simpa [Thread.unsent] using horder, ?_, ?_⟩
        · simp only [jobs, Option.elim, Thread.busy, Thread.ended]
          omega
        · simp only [jobs, Option.elim, Thread.busy, Thread.ended]
          omega
        · exact Nat.le_trans (le_of_le_of_eq hgone hended) (Nat.zero_le _)
        · simp only [jobs, Option.elim, Thread.busy, observed_panic]
          omega
        · simp only [observed_panic, Option.elim, Thread.ended]
          omega

/-- The result finds room, or nobody to receive it. -/
theorem send_cases (h : work.Wired) {result : T} (hthread : work.thread = .sending result) :
    (work.results.receiver = false ∧ work.send = some { work with thread := .leaving }) ∨
      ∃ results, work.results.Sent result results ∧
        work.send = some { work with results, thread := .receiving } := by
  unfold send
  rw [hthread]
  have hsingle := h.single
  have hroom := h.resultRoom
  simp only [jobs, hthread, Thread.busy] at hsingle
  rcases work.results.send_cases result with
    ⟨results, hsend, hsent⟩ | ⟨-, -, hfull⟩ | ⟨hsend, hreceiver⟩
  · refine .inr ⟨results, hsent, ?_⟩
    simp only [hsend]
  · omega
  · refine .inl ⟨hreceiver, ?_⟩
    simp only [hsend]

theorem send_kept (h : Kept seen work) (hstep : work.send = some next) :
    Kept (seen ++ [.quiet]) next := by
  have ⟨hwired, hanswering⟩ := h
  have ⟨hrequest, hresult, hsingle, hhearing, htelling⟩ := hwired
  cases hthread : work.thread with
  | sending result =>
      have ⟨hended, hbusy, hunsent⟩ :
          work.thread.ended = 0 ∧ work.thread.busy = 1 ∧ work.thread.unsent = [result] := by
        rw [hthread]
        exact ⟨rfl, rfl, rfl⟩
      simp only [jobs] at hsingle
      rcases send_cases hwired hthread with ⟨hreceiver, heq⟩ | ⟨results, hsent, heq⟩
      · rw [hstep] at heq
        cases heq
        refine ⟨⟨hrequest, hresult, ?_, fun hhere => (by cases hhere),
          fun hhere => (by cases hhere)⟩, fun hheld => ?_⟩
        · simp only [jobs, Thread.busy]
          omega
        · have hlistening := (hanswering hheld).listening
          rw [hreceiver] at hlistening
          cases hlistening
      · rw [hstep] at heq
        cases heq
        have hlength : results.queue.length = work.results.queue.length + 1 := by
          simp [hsent.queue]
        refine ⟨⟨hrequest, hsent.capacity.trans hresult, ?_, fun _ => hhearing hended,
          fun _ => hsent.sender.trans (htelling hended)⟩, fun hheld => ?_⟩
        · simp only [jobs, Thread.busy]
          omega
        · have ⟨hlistening, hflags, halone, hgone, horder, hcount, hpanicked⟩ := hanswering hheld
          simp only [jobs] at hflags halone hcount
          rw [hunsent] at horder
          refine ⟨hsent.receiver.trans hlistening, ?_, ?_, le_of_le_of_eq hgone hended, ?_, ?_, ?_⟩
          · simp only [jobs, Thread.busy, Thread.ended]
            omega
          · simp only [jobs, Thread.busy, Thread.ended]
            omega
          · simp [horder, hsent.queue, Thread.unsent]
          · simp only [jobs, Thread.busy, observed_quiet]
            omega
          · simpa [Thread.ended] using hpanicked.trans hended
  | receiving | working | leaving =>
      unfold send at hstep
      rw [hthread] at hstep
      cases hstep

theorem dropRequests_cases (hstep : work.dropRequests = some next) :
    work.thread = .leaving ∧ work.requests.receiver = true ∧
      next = { work with requests := work.requests.dropReceiver } := by
  unfold dropRequests at hstep
  cases hthread : work.thread with
  | leaving =>
      rw [hthread] at hstep
      obtain ⟨hreceiver, hnext⟩ := Option.ite_none_right_eq_some.mp hstep
      cases hnext
      exact ⟨rfl, hreceiver, rfl⟩
  | receiving | working | sending _ =>
      rw [hthread] at hstep
      cases hstep

theorem dropRequests_kept (h : Kept seen work) (hstep : work.dropRequests = some next) :
    Kept (seen ++ [.quiet]) next := by
  have ⟨⟨hrequest, hresult, hsingle, hhearing, htelling⟩, hanswering⟩ := h
  obtain ⟨hthread, -, rfl⟩ := dropRequests_cases hstep
  have hended : work.thread.ended = 1 := by
    rw [hthread]
    rfl
  simp only [jobs] at hsingle
  refine ⟨⟨hrequest, hresult, ?_, fun hhere => ?_, fun hhere => ?_⟩, fun hheld => ?_⟩
  · simp only [jobs, Channel.dropReceiver_queue, List.length_nil]
    omega
  · exact absurd (hended.symm.trans hhere) (by decide)
  · exact absurd (hended.symm.trans hhere) (by decide)
  · have ⟨hlistening, hflags, halone, hgone, horder, hcount, hpanicked⟩ := hanswering hheld
    simp only [jobs] at hflags halone hcount
    refine ⟨hlistening, ?_, ?_, hgone, by simpa using horder, ?_, by simpa using hpanicked⟩
    · simp only [jobs, Channel.dropReceiver_queue, List.length_nil]
      omega
    · simp only [jobs, Channel.dropReceiver_queue, List.length_nil]
      omega
    · simp only [jobs, Channel.dropReceiver_queue, List.length_nil, observed_quiet]
      omega

theorem dropResults_cases (hstep : work.dropResults = some next) :
    work.thread = .leaving ∧ work.results.sender = true ∧
      next = { work with results := work.results.dropSender } := by
  unfold dropResults at hstep
  cases hthread : work.thread with
  | leaving =>
      rw [hthread] at hstep
      obtain ⟨hsender, hnext⟩ := Option.ite_none_right_eq_some.mp hstep
      cases hnext
      exact ⟨rfl, hsender, rfl⟩
  | receiving | working | sending _ =>
      rw [hthread] at hstep
      cases hstep

theorem dropResults_kept (h : Kept seen work) (hstep : work.dropResults = some next) :
    Kept (seen ++ [.quiet]) next := by
  have ⟨⟨hrequest, hresult, hsingle, hhearing, htelling⟩, hanswering⟩ := h
  obtain ⟨hthread, -, rfl⟩ := dropResults_cases hstep
  have hended : work.thread.ended = 1 := by
    rw [hthread]
    rfl
  refine ⟨⟨hrequest, hresult, hsingle, fun hhere => ?_, fun hhere => ?_⟩, fun hheld => ?_⟩
  · exact absurd (hended.symm.trans hhere) (by decide)
  · exact absurd (hended.symm.trans hhere) (by decide)
  · have ⟨hlistening, hflags, halone, hgone, horder, hcount, hpanicked⟩ := hanswering hheld
    simp only [jobs] at hflags halone hcount
    exact ⟨hlistening, hflags, halone, hgone, by simpa using horder, by simpa [jobs] using hcount,
      by simpa using hpanicked⟩

end

/-! ### Every run -/

theorem step_kept {seen : List (Event T)} {work next : BackgroundWork T} {action : Action T}
    {event : Event T} (h : Kept seen work) (hstep : step work action = some (next, event)) :
    Kept (seen ++ [event]) next := by
  cases action with
  | request =>
      obtain ⟨hheld, hnext⟩ := Option.ite_none_right_eq_some.mp hstep
      cases hnext
      exact request_kept h hheld
  | tryResult =>
      obtain ⟨hheld, hnext⟩ := Option.ite_none_right_eq_some.mp hstep
      cases hnext
      exact tryResult_kept h hheld
  | releaseRequests =>
      obtain ⟨_, hnext, heq⟩ := Option.map_eq_some_iff.mp hstep
      cases heq
      exact releaseRequests_kept h hnext
  | releaseResults =>
      obtain ⟨_, hnext, heq⟩ := Option.map_eq_some_iff.mp hstep
      cases heq
      exact releaseResults_kept h hnext
  | receive =>
      obtain ⟨_, hnext, heq⟩ := Option.map_eq_some_iff.mp hstep
      cases heq
      exact receive_kept h hnext
  | finish outcome =>
      obtain ⟨_, hnext, heq⟩ := Option.map_eq_some_iff.mp hstep
      cases heq
      exact finish_kept h hnext
  | send =>
      obtain ⟨_, hnext, heq⟩ := Option.map_eq_some_iff.mp hstep
      cases heq
      exact send_kept h hnext
  | dropRequests =>
      obtain ⟨_, hnext, heq⟩ := Option.map_eq_some_iff.mp hstep
      cases heq
      exact dropRequests_kept h hnext
  | dropResults =>
      obtain ⟨_, hnext, heq⟩ := Option.map_eq_some_iff.mp hstep
      cases heq
      exact dropResults_kept h hnext

/-- Whatever the two parties do, in whatever order. -/
theorem reached_kept {actions : List (Action T)} {work : BackgroundWork T}
    {seen : List (Event T)} (h : run step start actions = some (work, seen)) : Kept seen work :=
  run_invariant (fun _ _ _ _ _ hkept hstep => step_kept hkept hstep) start_kept h

/-- At every moment of every interleaving there is at most one job, every accepted request is
answered by one result, by a panic or still open, and the results arrive as they were finished.
A request is taken exactly when nothing is in flight and the thread is not known to be gone, and
the thread never waits to hand over its result. -/
theorem backgroundWork_safe {actions : List (Action T)} {work : BackgroundWork T}
    {seen : List (Event T)} (h : run step start actions = some (work, seen))
    (hheld : work.held = true) :
    work.jobs ≤ 1 ∧
      accepted seen = (delivered seen).length + work.jobs + panics seen ∧
      (∃ waiting, waiting.length ≤ 1 ∧ finished seen = delivered seen ++ waiting ∧
        (work.inFlight = false → waiting = [])) ∧
      work.request.2 = !(work.inFlight || work.unavailable) ∧
      panics seen ≤ 1 ∧
      (work.unavailable = true → panics seen = 1) ∧
      ∀ result, work.thread = .sending result → work.send.isSome = true := by
  have hkept := reached_kept h
  have ⟨hlistening, hflags, halone, hgone, horder, hcount, hpanicked⟩ := hkept.2 hheld
  have hunsent : work.thread.unsent.length ≤ work.thread.busy := by
    cases work.thread <;> simp [Thread.unsent, Thread.busy]
  have hended := ended_le_one work.thread
  refine ⟨hkept.1.single, hcount, ⟨work.results.queue ++ work.thread.unsent, ?_, ?_, ?_⟩, ?_, ?_,
    ?_, ?_⟩
  · simp only [jobs] at halone
    rw [List.length_append]
    omega
  · rw [horder, List.append_assoc]
  · intro hidle
    simp only [jobs, hidle, Bool.toNat_false] at hflags
    apply List.length_eq_zero_iff.mp
    rw [List.length_append]
    omega
  · rcases request_eq hkept hheld with ⟨hbusy, heq⟩ | ⟨hfree, requests, -, heq⟩
    · rw [heq, hbusy]
      rfl
    · rw [heq, hfree]
      rfl
  · omega
  · intro hunavailable
    rw [hunavailable, Bool.toNat_true] at hgone
    omega
  · intro result hthread
    rcases send_cases hkept.1 hthread with ⟨-, heq⟩ | ⟨results, -, heq⟩
    · rw [heq]
      rfl
    · rw [heq]
      rfl

/-- The first result is delivered and the second job is worked on. -/
def secondJob : List (Action Nat) :=
  [.request, .receive, .finish (some 7), .send, .tryResult, .request, .receive]

theorem backgroundWork_safe_secondJob :
    ∃ work seen, run step start secondJob = some (work, seen) ∧ work.jobs ≤ 1 ∧
      accepted seen = (delivered seen).length + work.jobs + panics seen :=
  have hrun : run step start secondJob = some (_, _) := rfl
  have hsafe := backgroundWork_safe hrun rfl
  ⟨_, _, hrun, hsafe.1, hsafe.2.1⟩

/-! ### The thread by itself -/

/-- A bound on the steps that the thread takes without the owner. -/
def remaining (work : BackgroundWork T) : Nat :=
  3 * work.requests.queue.length +
    match work.thread with
    | .receiving => 3
    | .sending _ => 4
    | .working => 5
    | .leaving => work.requests.receiver.toNat + work.results.sender.toNat

theorem remaining_leaving (work : BackgroundWork T) :
    ({ work with thread := .leaving } : BackgroundWork T).remaining ≤
      3 * work.requests.queue.length + 2 := by
  have hreceiver := work.requests.receiver.toNat_le
  have hsender := work.results.sender.toNat_le
  show 3 * work.requests.queue.length +
    (work.requests.receiver.toNat + work.results.sender.toNat) ≤ _
  omega

variable {seen : List (Event T)} {work next : BackgroundWork T}

/-- The thread touches neither the owner's flags nor its hold on the channels. -/
theorem ofThread_owner {action : Action T} {event : Event T} (hown : action.ofThread = true)
    (hstep : step work action = some (next, event)) :
    next.inFlight = work.inFlight ∧ next.unavailable = work.unavailable ∧
      next.held = work.held := by
  cases action with
  | request | tryResult | releaseRequests | releaseResults => cases hown
  | receive =>
      obtain ⟨_, hnext, heq⟩ := Option.map_eq_some_iff.mp hstep
      cases heq
      obtain ⟨-, ⟨-, rfl⟩ | ⟨requests, hreceived, rfl⟩⟩ := receive_cases hnext
      · exact ⟨rfl, rfl, rfl⟩
      · exact ⟨rfl, rfl, hreceived.sender⟩
  | finish outcome =>
      obtain ⟨_, hnext, heq⟩ := Option.map_eq_some_iff.mp hstep
      cases heq
      obtain ⟨-, rfl⟩ := finish_cases hnext
      exact ⟨rfl, rfl, rfl⟩
  | send =>
      obtain ⟨_, hnext, heq⟩ := Option.map_eq_some_iff.mp hstep
      cases heq
      unfold send at hnext
      split at hnext
      · split at hnext
        · cases hnext
        · cases hnext
          exact ⟨rfl, rfl, rfl⟩
        · cases hnext
          exact ⟨rfl, rfl, rfl⟩
      · cases hnext
  | dropRequests =>
      obtain ⟨_, hnext, heq⟩ := Option.map_eq_some_iff.mp hstep
      cases heq
      obtain ⟨-, -, rfl⟩ := dropRequests_cases hnext
      exact ⟨rfl, rfl, rfl⟩
  | dropResults =>
      obtain ⟨_, hnext, heq⟩ := Option.map_eq_some_iff.mp hstep
      cases heq
      obtain ⟨-, -, rfl⟩ := dropResults_cases hnext
      exact ⟨rfl, rfl, rfl⟩

/-- The thread delivers nothing to the owner by itself. -/
theorem ofThread_delivered {action : Action T} {event : Event T} (hown : action.ofThread = true)
    (hstep : step work action = some (next, event)) (seen : List (Event T)) :
    delivered (seen ++ [event]) = delivered seen := by
  cases action with
  | request | tryResult | releaseRequests | releaseResults => cases hown
  | finish outcome =>
      obtain ⟨_, -, heq⟩ := Option.map_eq_some_iff.mp hstep
      cases heq
      cases outcome <;> simp
  | receive | send | dropRequests | dropResults =>
      obtain ⟨_, -, heq⟩ := Option.map_eq_some_iff.mp hstep
      cases heq
      simp

/-- Each step of the thread brings it closer to where it waits for the owner, or to its end. -/
theorem ofThread_step {action : Action T} {event : Event T} (hown : action.ofThread = true)
    (hwired : work.Wired) (hstep : step work action = some (next, event)) :
    next.remaining < work.remaining := by
  have hleaving := remaining_leaving work
  cases action with
  | request | tryResult | releaseRequests | releaseResults => cases hown
  | receive =>
      obtain ⟨_, hnext, heq⟩ := Option.map_eq_some_iff.mp hstep
      cases heq
      obtain ⟨hthread, ⟨-, rfl⟩ | ⟨requests, hreceived, rfl⟩⟩ := receive_cases hnext
      · simp only [remaining, hthread] at hleaving ⊢
        omega
      · simp only [remaining, hthread, hreceived.queue, List.length_cons]
        omega
  | finish outcome =>
      obtain ⟨_, hnext, heq⟩ := Option.map_eq_some_iff.mp hstep
      cases heq
      obtain ⟨hthread, rfl⟩ := finish_cases hnext
      cases outcome with
      | some result => simp [remaining, hthread]
      | none =>
          simp only [remaining, hthread, Option.elim] at hleaving ⊢
          omega
  | send =>
      obtain ⟨_, hnext, heq⟩ := Option.map_eq_some_iff.mp hstep
      cases heq
      cases hthread : work.thread with
      | sending result =>
          rcases send_cases hwired hthread with ⟨-, hsend⟩ | ⟨results, -, hsend⟩
          · rw [hnext] at hsend
            cases hsend
            simp only [remaining, hthread] at hleaving ⊢
            omega
          · rw [hnext] at hsend
            cases hsend
            simp [remaining, hthread]
      | receiving | working | leaving =>
          unfold send at hnext
          rw [hthread] at hnext
          cases hnext
  | dropRequests =>
      obtain ⟨_, hnext, heq⟩ := Option.map_eq_some_iff.mp hstep
      cases heq
      obtain ⟨hthread, hreceiver, rfl⟩ := dropRequests_cases hnext
      simp only [remaining, hthread, hreceiver, Channel.dropReceiver_queue,
        Channel.dropReceiver_receiver, List.length_nil, Bool.toNat_true, Bool.toNat_false]
      omega
  | dropResults =>
      obtain ⟨_, hnext, heq⟩ := Option.map_eq_some_iff.mp hstep
      cases heq
      obtain ⟨hthread, hsender, rfl⟩ := dropResults_cases hnext
      simp only [remaining, hthread, hsender, Channel.dropSender_sender, Bool.toNat_true,
        Bool.toNat_false]
      omega

theorem remaining_le (h : work.Wired) : work.remaining ≤ 6 := by
  have hsingle := h.single
  simp only [jobs] at hsingle
  cases hthread : work.thread with
  | receiving =>
      simp only [remaining, hthread]
      omega
  | working | sending _ =>
      simp only [hthread, Thread.busy] at hsingle
      simp only [remaining, hthread]
      omega
  | leaving =>
      have hreceiver := work.requests.receiver.toNat_le
      have hsender := work.results.sender.toNat_le
      simp only [remaining, hthread]
      omega

/-- The thread has no step to take. -/
def Stuck (work : BackgroundWork T) : Prop :=
  ∀ action : Action T, action.ofThread = true → step work action = none

/-- A thread without a step waits for a request that its owner has not sent, or has ended. -/
theorem stuck_cases (hwired : work.Wired) (hstuck : work.Stuck) :
    (work.thread = .receiving ∧ work.requests.queue = [] ∧ work.held = true) ∨
      (work.thread = .leaving ∧ work.requests.receiver = false ∧ work.results.sender = false) := by
  cases hthread : work.thread with
  | receiving =>
      have hnone := Option.map_eq_none_iff.mp (hstuck .receive rfl)
      unfold receive at hnone
      rw [hthread] at hnone
      rcases work.requests.recv_cases with
        ⟨_, requests, hrecv, -⟩ | ⟨-, hempty, hsender⟩ | ⟨hrecv, -, -⟩
      · simp [hrecv] at hnone
      · exact .inl ⟨rfl, hempty, hsender⟩
      · simp [hrecv] at hnone
  | working =>
      have hnone := Option.map_eq_none_iff.mp (hstuck (.finish none) rfl)
      unfold finish at hnone
      rw [hthread] at hnone
      cases hnone
  | sending result =>
      have hnone := Option.map_eq_none_iff.mp (hstuck .send rfl)
      rcases send_cases hwired hthread with ⟨-, hsend⟩ | ⟨results, -, hsend⟩
      · rw [hnone] at hsend
        cases hsend
      · rw [hnone] at hsend
        cases hsend
  | leaving =>
      have hrequests := Option.map_eq_none_iff.mp (hstuck .dropRequests rfl)
      have hresults := Option.map_eq_none_iff.mp (hstuck .dropResults rfl)
      unfold dropRequests at hrequests
      unfold dropResults at hresults
      rw [hthread] at hrequests hresults
      exact .inr ⟨rfl, by simpa using hrequests, by simpa using hresults⟩

/-- Whatever was reached: left alone, the thread stops after at most six steps, provided that the
work returns or panics. Then the owner's next look ends the flight, with a result or with the
news that the lane is unavailable; and when the owner is gone the thread is gone too. -/
theorem backgroundWork_answers {actions own : List (Action T)} {last : BackgroundWork T}
    {later : List (Event T)} (h : run step start actions = some (work, seen))
    (hown : ∀ action ∈ own, action.ofThread = true)
    (hlast : run step work own = some (last, later)) :
    own.length ≤ 6 ∧ (last.Stuck →
      (last.held = true → last.tryResult.1.inFlight = false ∧
        (last.inFlight = true →
          last.tryResult.2.isSome = true ∨ last.tryResult.1.unavailable = true)) ∧
      (last.held = false → last.thread = .leaving ∧ last.requests.receiver = false ∧
        last.results.sender = false)) := by
  have hkept := reached_kept h
  have hbound : own.length + last.remaining ≤ work.remaining :=
    run_length_le (p := fun w => ∃ seen, Kept seen w)
      (fun _ _ _ _ ⟨seen, hinv⟩ hstep => ⟨_, step_kept hinv hstep⟩)
      (fun _ _ _ _ ⟨_, hinv⟩ hallowed hstep => ofThread_step hallowed hinv.1 hstep)
      ⟨seen, hkept⟩ hown hlast
  have hstarted : work.remaining ≤ 6 := remaining_le hkept.1
  have hlastKept : Kept (seen ++ later) last :=
    run_invariant (fun _ _ _ _ _ hinv hstep => step_kept hinv hstep) hkept hlast
  refine ⟨by omega, fun hstuck => ⟨fun hheld => ?_, fun hreleased => ?_⟩⟩
  · have ⟨_, hflags, halone, hgone, _, _, _⟩ := hlastKept.2 hheld
    rcases tryResult_eq hlastKept with
      ⟨result, results, -, heq⟩ | ⟨hempty, hsender, heq⟩ | ⟨-, -, heq⟩
    · rw [heq]
      exact ⟨rfl, fun _ => .inl rfl⟩
    · -- Nothing was sent and the thread is there: it waits, and so does no job.
      rw [heq]
      have hidle : last.inFlight = false := by
        rcases stuck_cases hlastKept.1 hstuck with ⟨hthread, hqueue, -⟩ | ⟨-, -, hnone⟩
        · simp only [jobs, hthread, hqueue, hempty, Thread.busy, Thread.ended,
            List.length_nil] at hflags
          cases hflight : last.inFlight with
          | false => rfl
          | true =>
              rw [hflight, Bool.toNat_true] at hflags
              omega
        · rw [hsender] at hnone
          cases hnone
      refine ⟨hidle, fun hflight => ?_⟩
      rw [hidle] at hflight
      cases hflight
    · rw [heq]
      exact ⟨rfl, fun _ => .inr rfl⟩
  · rcases stuck_cases hlastKept.1 hstuck with ⟨-, -, hheld⟩ | hended
    · rw [hreleased] at hheld
      cases hheld
    · exact hended

/-- The work panicked while the owner waits, and the thread is gone. -/
def panicked : BackgroundWork Nat :=
  { requests := (Channel.empty 1).dropReceiver
    results := (Channel.empty 1).dropSender
    inFlight := true
    unavailable := false
    thread := .leaving }

theorem panicked_stuck : panicked.Stuck := by
  intro action hown
  cases action with
  | request | tryResult | releaseRequests | releaseResults => cases hown
  | receive | finish _ | send | dropRequests | dropResults => rfl

theorem backgroundWork_answers_panicked :
    panicked.tryResult.1.inFlight = false ∧
      (panicked.tryResult.2.isSome = true ∨ panicked.tryResult.1.unavailable = true) :=
  have hrun : run step start [Action.request, .receive] = some (_, _) := rfl
  have hlast : run step _ [Action.finish none, .dropResults, .dropRequests] =
    some (panicked, _) := rfl
  have hown := backgroundWork_answers hrun (by decide) hlast
  ⟨((hown.2 panicked_stuck).1 rfl).1, ((hown.2 panicked_stuck).1 rfl).2 rfl⟩

end CodexInfo.Recorder.BackgroundWork
