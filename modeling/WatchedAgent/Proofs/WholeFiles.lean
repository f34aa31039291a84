import WatchedAgent.Model.Sending

/-!
# `WatchedAgent.Proofs.WholeFiles`: static files are sent whole

`Reading` says where a chain stands while a send is under way: the stream is good, and its
position is the number of bytes read. `resource_send_spec` is one call, `exec_spec` a run of
completions: what is written is what the loop `StaticFiles.sendLoop` writes, for any failures.

`sends_whole`: where every send succeeds, each chain ends with read number `length / 131072 + 1`
and has then written the header and the bytes of the file, as many as the header says.
-/

set_option autoImplicit false

namespace WatchedAgent.Proofs

open WatchedAgent.Lib
open WatchedAgent.Model

namespace WholeFiles

open WatchedAgent.Model.Sending

/-- A chain before a call, with `rest` as what is left of the file. -/
structure Reading (rest : List UInt8) (c : Chain) : Prop where
  good : c.ifs.good = true
  rest_eq : c.ifs.content.drop c.ifs.pos = rest
  buffer : c.buffer.length = 131072
  idle : c.pending = false

/-- One call: the next block is written, and a callback is set where the block was full. -/
theorem resource_send_spec {rest : List UInt8} {c : Chain} (h : Reading rest c) :
    (resource_send c).response.written = c.response.written ++ rest.take 131072 ∧
    (resource_send c).reads = c.reads + 1 ∧
    (resource_send c).pending = decide (131072 ≤ rest.length) ∧
    (131072 ≤ rest.length →
      Reading (rest.drop 131072) { resource_send c with pending := false }) := by
  obtain ⟨hbytes, hcontent, hfull⟩ := ByteStream.read_of_good h.good c.buffer.length
  rw [h.buffer] at hbytes hcontent hfull
  rw [h.rest_eq] at hbytes
  have hlength : (rest.take 131072).length = min 131072 rest.length := List.length_take
  unfold resource_send
  rw [h.buffer]
  dsimp only
  rw [hbytes] at hfull ⊢
  have hbuffer : (rest.take 131072 ++ c.buffer.drop (rest.take 131072).length).length
      = 131072 := by
    rw [List.length_append, List.length_drop, h.buffer]
    omega
  split
  · rename_i hsome
    refine ⟨?_, rfl, ?_, fun hlong => ?_⟩
    · dsimp only
      rw [Response.written_write, List.take_left]
    · dsimp only
      rw [hbuffer, Bool.beq_eq_decide_eq, hlength]
      exact decide_eq_decide.mpr (by omega)
    · obtain ⟨hgood, hpos⟩ := hfull (by omega)
      refine ⟨hgood, ?_, hbuffer, rfl⟩
      dsimp only
      rw [hcontent, hpos, ← h.rest_eq, List.drop_drop]
  · -- Nothing was read, so nothing is left.
    rename_i hnone
    have hempty : rest = [] := List.length_eq_zero_iff.mp (by omega)
    subst hempty
    refine ⟨?_, rfl, h.idle, fun hlong => absurd hlong (by decide)⟩
    rw [List.take_nil, List.append_nil]

/-- The sends that fail in a run. -/
def failsAt (es : List Completion) (k : Nat) : Bool :=
  match es[k]? with
  | some (.failed _) => true
  | _ => false

/-- The loop counts its sends from any number on. -/
theorem sendLoop_succ (ec : Nat → Bool) (k : Nat) (rest : List UInt8) :
    StaticFiles.sendLoop ec (k + 1) rest
      = StaticFiles.sendLoop (fun i => ec (i + 1)) k rest := by
  fun_induction StaticFiles.sendLoop (fun i => ec (i + 1)) k rest with
  | case1 k rest chunk h ih => rw [StaticFiles.sendLoop, if_pos h, ih]
  | case2 k rest chunk h => rw [StaticFiles.sendLoop, if_neg h]

/-- The loop goes on after a full block whose send works. -/
theorem sendLoop_of_sent {ec : Nat → Bool} {k : Nat} {rest : List UInt8}
    (hlong : 131072 ≤ rest.length) (hec : ec k = false) :
    StaticFiles.sendLoop ec k rest
      = rest.take 131072 ++ StaticFiles.sendLoop ec (k + 1) (rest.drop 131072) := by
  have hfull : (rest.take 131072).length = 131072 := List.length_take_of_le hlong
  conv_lhs => rw [StaticFiles.sendLoop]
  rw [if_pos ⟨hfull, hec⟩]

/-- A chain that is over stays as it is. -/
theorem exec_of_idle (send : Chain → Chain) {c : Chain} (h : c.pending = false)
    (es : List Completion) : Run.exec (complete send) c es = c := by
  induction es with
  | nil => rfl
  | cons e es ih =>
      rw [Run.exec_cons]
      have hstep : complete send c e = c := by
        unfold complete
        rw [h]
        rfl
      rw [hstep, ih]

/-- Before the callback of a send, the chain is one block further. -/
theorem reading_callback {rest : List UInt8} {c : Chain} (h : Reading rest c)
    (hlong : 131072 ≤ rest.length) :
    Reading (rest.drop 131072) { resource_send c with
      response := (resource_send c).response.transfer (resource_send c).response.streambuf.length
      pending := false } := by
  have hnext := (resource_send_spec h).2.2.2 hlong
  exact ⟨hnext.good, hnext.rest_eq, hnext.buffer, rfl⟩

/-- The callback of a send that worked makes the next call. -/
theorem complete_sent {rest : List UInt8} {c : Chain} (h : Reading rest c)
    (hlong : 131072 ≤ rest.length) :
    ∃ c', Reading (rest.drop 131072) c' ∧
      complete resource_send (resource_send c) .sent = resource_send c' ∧
      c'.reads = c.reads + 1 ∧
      c'.response.written = c.response.written ++ rest.take 131072 := by
  obtain ⟨hwritten, hreads, hpending, hnext⟩ := resource_send_spec h
  rw [decide_eq_true hlong] at hpending
  refine ⟨_, reading_callback h hlong, ?_, hreads, ?_⟩
  · unfold complete
    rw [if_pos hpending]
  · rw [Response.written_transfer, hwritten]

/-- A run of completions after a call. A chain that is over has written what the loop
writes. -/
theorem exec_spec {rest : List UInt8} {c : Chain} (h : Reading rest c) (es : List Completion)
    (hover : (Run.exec (complete resource_send) (resource_send c) es).pending = false) :
    (Run.exec (complete resource_send) (resource_send c) es).response.written
      = c.response.written ++ StaticFiles.sendLoop (failsAt es) 0 rest := by
  induction es generalizing rest c with
  | nil =>
      obtain ⟨hwritten, -, hpending, -⟩ := resource_send_spec h
      rw [Run.exec_nil] at hover ⊢
      rw [hpending, decide_eq_false_iff_not] at hover
      rw [hwritten, StaticFiles.sendLoop, if_neg]
      rw [List.length_take]
      omega
  | cons e es ih =>
      obtain ⟨hwritten, -, hpending, -⟩ := resource_send_spec h
      have hlength : (rest.take 131072).length = min 131072 rest.length := List.length_take
      by_cases hlong : 131072 ≤ rest.length
      · cases e with
        | sent =>
            obtain ⟨c', hc', hstep, -, hwritten'⟩ := complete_sent h hlong
            rw [Run.exec_cons, hstep] at hover ⊢
            rw [ih hc' hover, hwritten', sendLoop_of_sent hlong rfl, sendLoop_succ,
              List.append_assoc]
            rfl
        | failed n =>
            -- The callback does nothing after an error.
            rw [decide_eq_true hlong] at hpending
            have hstep : complete resource_send (resource_send c) (.failed n)
                = { resource_send c with
                    response := (resource_send c).response.transfer n, pending := false } := by
              unfold complete
              rw [if_pos hpending]
            rw [Run.exec_cons, hstep, exec_of_idle resource_send rfl]
            dsimp only
            rw [Response.written_transfer, hwritten, StaticFiles.sendLoop, if_neg]
            exact fun hgo => Bool.noConfusion hgo.2
      · rw [decide_eq_false hlong] at hpending
        rw [exec_of_idle resource_send hpending, hwritten, StaticFiles.sendLoop, if_neg]
        omega

/-- A run in which every send works: the reads made, whether the chain goes on, and what is
written. -/
theorem exec_of_sent {rest : List UInt8} {c : Chain} (h : Reading rest c) {es : List Completion}
    (hsent : ∀ e ∈ es, e = .sent) :
    (Run.exec (complete resource_send) (resource_send c) es).reads
      = c.reads + min (es.length + 1) (rest.length / 131072 + 1) ∧
    (Run.exec (complete resource_send) (resource_send c) es).pending
      = decide (es.length < rest.length / 131072) ∧
    (Run.exec (complete resource_send) (resource_send c) es).response.written
      = c.response.written ++ rest.take (131072 * (es.length + 1)) := by
  induction es generalizing rest c with
  | nil =>
      obtain ⟨hwritten, hreads, hpending, -⟩ := resource_send_spec h
      rw [Run.exec_nil, hwritten, hreads, hpending, List.length_nil]
      exact ⟨by omega, decide_eq_decide.mpr (by omega), rfl⟩
  | cons e es ih =>
      obtain rfl : e = .sent := hsent e List.mem_cons_self
      by_cases hlong : 131072 ≤ rest.length
      · obtain ⟨c', hc', hstep, hreads, hwritten⟩ := complete_sent h hlong
        obtain ⟨hreads', hpending', hwritten'⟩ :=
          ih hc' (fun e he => hsent e (List.mem_cons_of_mem _ he))
        rw [Run.exec_cons, hstep, hreads', hpending', hwritten', hreads, hwritten,
          List.length_drop, List.length_cons]
        refine ⟨by omega, decide_eq_decide.mpr (by omega), ?_⟩
        rw [List.append_assoc, ← List.take_add,
          show 131072 + 131072 * (es.length + 1) = 131072 * (es.length + 1 + 1) by omega]
      · obtain ⟨hwritten, hreads, hpending, -⟩ := resource_send_spec h
        rw [decide_eq_false hlong] at hpending
        rw [exec_of_idle resource_send hpending, hwritten, hreads, hpending, List.length_cons]
        refine ⟨by omega, (decide_eq_false (by omega)).symm, ?_⟩
        rw [List.take_of_length_le (by omega), List.take_of_length_le (by omega)]

/-- Before the first call the header waits, and the whole file is left. -/
theorem exists_reading (hash : String) (content : List UInt8) :
    ∃ c, Reading content c ∧ answer resource_send hash content = resource_send c ∧
      c.reads = 0 ∧ c.response.written
        = bytesOf (StaticFiles.found hash (some content.length) []).text := by
  let c : Chain := {
    response := { streambuf := bytesOf (StaticFiles.found hash (some content.length) []).text }
    ifs := { content }
    buffer := List.replicate 131072 0 }
  have hreading : Reading content c := ⟨rfl, rfl, List.length_replicate, rfl⟩
  have hanswer : answer resource_send hash content = resource_send c := rfl
  exact ⟨c, hreading, hanswer, rfl, List.nil_append _⟩

/-- A chain that is over has written the response of the handler, whatever sends failed. -/
theorem written_eq_found (hash : String) (content : List UInt8) (es : List Completion)
    (hover : (http_send hash content es).pending = false) :
    (http_send hash content es).response.written
      = bytesOf (StaticFiles.found hash (some content.length) []).text
        ++ StaticFiles.default_resource_send (failsAt es) content := by
  obtain ⟨c, hc, heq, -, hheader⟩ := exists_reading hash content
  unfold http_send default_resource_send at hover ⊢
  rw [heq] at hover ⊢
  rw [exec_spec hc es hover, hheader]
  rfl

/-- Both servers send a file whole. In every run in which each send works there are at most
`length / 131072 + 1` reads, the header and the first bytes of the file are written at any
time, and after `length / 131072` sends the chain is over and all is written. -/
theorem sends_whole (hash : String) (content : List UInt8) (es : List Completion)
    (hsent : ∀ e ∈ es, e = .sent) :
    ∀ c, c = http_send hash content es ∨ c = https_send hash content es →
      c.reads ≤ content.length / 131072 + 1 ∧
      (c.pending = false ↔ content.length / 131072 ≤ es.length) ∧
      c.response.written
        = bytesOf (StaticFiles.found hash (some content.length) []).text
          ++ content.take (131072 * c.reads) ∧
      (c.pending = false → c.response.written
        = bytesOf (StaticFiles.found hash (some content.length) []).text ++ content) := by
  intro c hc
  -- The two functions have one body.
  have hexec : c = Run.exec (complete resource_send) (answer resource_send hash content) es :=
    hc.elim id id
  obtain ⟨c₀, hc₀, heq, hzero, hheader⟩ := exists_reading hash content
  obtain ⟨hreads, hpending, hwritten⟩ := exec_of_sent hc₀ hsent
  rw [← heq, ← hexec] at hreads hpending hwritten
  rw [hreads, hpending, hwritten, hheader, hzero, decide_eq_false_iff_not]
  refine ⟨by omega, by omega, ?_, fun hover => ?_⟩
  · rw [Nat.zero_add]
    rcases Nat.le_total es.length (content.length / 131072) with h | h
    · rw [Nat.min_eq_left (by omega)]
    · -- Past the end of the file there is nothing more to take.
      rw [Nat.min_eq_right (by omega), List.take_of_length_le (by omega),
        List.take_of_length_le (by omega)]
  · rw [List.take_of_length_le (by omega)]

/-- A file of one full block and a byte, sent with two reads: the first send completes and its
callback reads the rest. -/
theorem sends_whole_two_reads :
    (http_send "ab" (List.replicate 131073 7) [.sent]).reads ≤ 2 ∧
    (http_send "ab" (List.replicate 131073 7) [.sent]).pending = false ∧
    (http_send "ab" (List.replicate 131073 7) [.sent]).response.written
      = bytesOf (StaticFiles.found "ab" (some 131073) []).text ++ List.replicate 131073 7 := by
  have hwhole := sends_whole "ab" (List.replicate 131073 7) [.sent]
    (fun _ => List.mem_singleton.mp) _ (.inl rfl)
  rw [List.length_replicate] at hwhole
  obtain ⟨hreads, hpending, -, hwritten⟩ := hwhole
  have hover := hpending.mpr (Nat.le_refl 1)
  exact ⟨hreads, hover, hwritten hover⟩

end WholeFiles

end WatchedAgent.Proofs
