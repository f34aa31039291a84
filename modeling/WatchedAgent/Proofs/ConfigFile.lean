import WatchedAgent.Model.Config

/-!
# `WatchedAgent.Proofs.ConfigFile`: reading and writing the agent configuration

`Config.load` runs its blocks one after the other. `Block.run_spec` says once what a block
does: it leaves the document alone, or it sets its own member and nothing else. The rest
follows from that for any list of blocks:

* `run_keeps`: a block that tests the member it sets keeps every value.
* `Settled`: the block has nothing to change any more. A block settles itself and keeps the
  others settled, so a document that was loaded once stays as it is (`foldlM_settled`).

The block for `threads` tests another member, and `loadAndSave_keeps_iff` says when that
matters.
-/

set_option autoImplicit false

namespace WatchedAgent.Proofs

open WatchedAgent.Lib (Json)
open WatchedAgent.Model
open WatchedAgent.Model.Config

namespace ConfigFile

/-- The sections the blocks write to. -/
def sections : List String := ["server", "services", "plugins"]

/-- The value at `data[sec][key]`. -/
def valueAt (data : Json) (sec key : String) : Option Json :=
  (data.member? sec).bind (fun j => j.member? key)

/-- A configuration document: an object whose sections are objects, where they are present. -/
structure Document (data : Json) : Prop where
  root : data.IsObjectOrNull
  sect : ∀ sec ∈ sections, ∀ j, data.member? sec = some j → ∃ ms, j = .obj ms

/-- Every key of `data` keeps its value in `data'`, and keys are added to the sections only. -/
structure Keeps (data data' : Json) : Prop where
  document : Document data'
  outside : ∀ key, key ∉ sections → data'.member? key = data.member? key
  inside : ∀ sec ∈ sections, ∀ key v, valueAt data sec key = some v →
    valueAt data' sec key = some v

/-- The section a block writes to, as the source reads it. -/
theorem Document.getD_sect {data : Json} (h : Document data) {sec : String}
    (hsec : sec ∈ sections) : ∃ j, data.getD sec = some j ∧ j.IsObjectOrNull ∧
      ∀ key, j.member? key = valueAt data sec key := by
  unfold valueAt
  rw [Json.getD_eq h.root]
  cases hj : data.member? sec with
  | none => exact ⟨.null, rfl, trivial, fun _ => rfl⟩
  | some j =>
      obtain ⟨ms, rfl⟩ := h.sect sec hsec j hj
      exact ⟨_, rfl, trivial, fun _ => rfl⟩

/-- An assignment to a member of a section sets it, and changes no other value. -/
theorem assign_spec {data : Json} (h : Document data) {sec : String} (hsec : sec ∈ sections)
    (key : String) (value : Json) : ∃ data', assign data sec key value = some data' ∧
      Document data' ∧ (∀ other, other ≠ sec → data'.member? other = data.member? other) ∧
      valueAt data' sec key = some value ∧
      ∀ other, other ≠ key → valueAt data' sec other = valueAt data sec other := by
  obtain ⟨j, hj, hobj, hvalue⟩ := h.getD_sect hsec
  obtain ⟨ms, hms⟩ := Json.exists_setMember hobj key value
  obtain ⟨ms', hms'⟩ := Json.exists_setMember h.root sec (.obj ms)
  have hself := Json.member?_setMember_self hms'
  have hother : ∀ other, other ≠ sec → (Json.obj ms').member? other = data.member? other :=
    fun other hne => Json.member?_setMember_of_ne hms' hne
  refine ⟨.obj ms', by simp [assign, hj, hms, hms'], ⟨trivial, ?_⟩, hother, ?_, ?_⟩
  · -- The section written to is an object now, and the others are as they were.
    intro other hmem j' hj'
    by_cases hne : other = sec
    · rw [hne, hself] at hj'
      exact ⟨ms, (Option.some.inj hj').symm⟩
    · exact h.sect other hmem j' (hother other hne ▸ hj')
  · show ((Json.obj ms').member? sec).bind _ = _
    rw [hself]
    exact Json.member?_setMember_self hms
  · intro other hne
    show ((Json.obj ms').member? sec).bind _ = _
    rw [hself, ← hvalue other]
    exact Json.member?_setMember_of_ne hms hne

/-- A member set to the value it has. -/
theorem assign_of_valueAt {data : Json} {sec key : String} {value : Json}
    (h : valueAt data sec key = some value) : assign data sec key value = some data := by
  obtain ⟨j, hj, hvalue⟩ := Option.bind_eq_some_iff.mp h
  have hget : data.getD sec = some j := by
    rw [Json.getD_eq (Json.isObjectOrNull_of_member? hj), hj, Option.getD_some]
  unfold assign
  rw [hget, Option.bind_eq_bind, Option.bind_some, Json.setMember_of_member? hvalue]
  exact Json.setMember_of_member? hj

/-- A block writes when the member it tests is absent. The test for the section adds
nothing: an absent section has no members. -/
theorem holds_eq {data : Json} (h : Document data) {b : Block} (hsec : b.sec ∈ sections) :
    b.holds data = some (valueAt data b.sec b.tested).isNone := by
  obtain ⟨j, hj, hobj, hvalue⟩ := h.getD_sect hsec
  have htest : j.isMember b.tested = some (valueAt data b.sec b.tested).isSome := by
    rw [Json.isMember_eq hobj, hvalue]
  unfold Block.holds
  rw [Json.isMember_eq h.root, hj]
  cases hmem : data.member? b.sec with
  | some j' => simp [htest]
  | none =>
      have hnone : valueAt data b.sec b.tested = none := by simp [valueAt, hmem]
      cases b.first <;> simp_all

/-- What a block does. It leaves the document alone when the member it tests is there.
Else it sets its own member, and no other value changes. -/
theorem run_spec {data : Json} (h : Document data) (b : Block) (hsec : b.sec ∈ sections) :
    ∃ data', Block.run data b = some data' ∧ Document data' ∧
      ((valueAt data b.sec b.tested ≠ none ∧ data' = data) ∨
        (valueAt data b.sec b.tested = none ∧
          (∀ other, other ≠ b.sec → data'.member? other = data.member? other) ∧
          valueAt data' b.sec b.key = some b.value ∧
          ∀ other, other ≠ b.key → valueAt data' b.sec other = valueAt data b.sec other)) := by
  cases htest : valueAt data b.sec b.tested with
  | some v => exact ⟨data, by simp [Block.run, holds_eq h hsec, htest], h, .inl ⟨by simp, rfl⟩⟩
  | none =>
      obtain ⟨data', hrun, hdoc, hrest⟩ := assign_spec h hsec b.key b.value
      exact ⟨data', by simp [Block.run, holds_eq h hsec, htest, hrun], hdoc, .inr ⟨rfl, hrest⟩⟩

/-- The places a block leaves alone, and the values that are only added. -/
theorem valueAt_run {data data' : Json} (h : Document data) {b : Block}
    (hsec : b.sec ∈ sections) (hrun : Block.run data b = some data') (sec key : String) :
    valueAt data' sec key = valueAt data sec key ∨
      (sec = b.sec ∧ key = b.key ∧ valueAt data b.sec b.tested = none ∧
        valueAt data' sec key = some b.value) := by
  obtain ⟨d, hd, -, ⟨-, rfl⟩ | ⟨hnone, hout, hset, hkeep⟩⟩ := run_spec h b hsec
  · obtain rfl : d = data' := by rw [hd] at hrun; exact Option.some.inj hrun
    exact .inl rfl
  · obtain rfl : d = data' := by rw [hd] at hrun; exact Option.some.inj hrun
    by_cases hs : sec = b.sec
    · subst hs
      by_cases hk : key = b.key
      · exact .inr ⟨rfl, hk, hnone, hk ▸ hset⟩
      · exact .inl (hkeep key hk)
    · left
      unfold valueAt
      rw [hout sec hs]

/-- A block that tests the member it sets, or finds there the value it sets, keeps every
value. -/
theorem run_keeps {data₀ data data' : Json} {b : Block} (hsec : b.sec ∈ sections)
    (hkey : b.tested = b.key ∨ valueAt data b.sec b.tested ≠ none ∨
      ∀ v, valueAt data b.sec b.key = some v → v = b.value)
    (hrun : Block.run data b = some data') (h : Keeps data₀ data) : Keeps data₀ data' := by
  obtain ⟨d, hd, hdoc, hcases⟩ := run_spec h.document b hsec
  obtain rfl : d = data' := by rw [hd] at hrun; exact Option.some.inj hrun
  refine ⟨hdoc, ?_, ?_⟩
  · intro key hnot
    rw [← h.outside key hnot]
    obtain ⟨-, rfl⟩ | ⟨-, hout, -⟩ := hcases
    · rfl
    · exact hout key (fun heq => hnot (heq ▸ hsec))
  · intro sec hmem key v hv
    have hv := h.inside sec hmem key v hv
    obtain heq | ⟨rfl, rfl, hnone, hset⟩ := valueAt_run h.document hsec hrun sec key
    · rw [heq, hv]
    · -- The block wrote here, so the value was absent or the same.
      rcases hkey with hkey | hkey | hkey
      · rw [hkey, hv] at hnone
        exact absurd hnone (by simp)
      · exact absurd hnone hkey
      · rw [hset, hkey v hv]

/-- The block has nothing to change: the member it tests is there, or the one it sets has
its value. -/
def Settled (b : Block) (data : Json) : Prop :=
  valueAt data b.sec b.tested ≠ none ∨ valueAt data b.sec b.key = some b.value

theorem run_of_settled {data : Json} (h : Document data) {b : Block} (hsec : b.sec ∈ sections)
    (hset : Settled b data) : Block.run data b = some data := by
  unfold Block.run
  rw [holds_eq h hsec, Option.bind_eq_bind, Option.bind_some]
  rcases htest : valueAt data b.sec b.tested with - | v
  · exact assign_of_valueAt (hset.resolve_left (not_not_intro htest))
  · rfl

/-- A block settles itself. -/
theorem settled_run {data data' : Json} (h : Document data) {b : Block} (hsec : b.sec ∈ sections)
    (hrun : Block.run data b = some data') : Settled b data' := by
  obtain ⟨d, hd, -, ⟨hsome, rfl⟩ | ⟨-, -, hset, -⟩⟩ := run_spec h b hsec
  · rw [hd] at hrun
    exact .inl (Option.some.inj hrun ▸ hsome)
  · rw [hd] at hrun
    exact .inr (Option.some.inj hrun ▸ hset)

/-- A block that sets another member keeps a block settled. -/
theorem settled_of_run {data data' : Json} (h : Document data) {b c : Block}
    (hsec : c.sec ∈ sections) (hne : ¬ (b.sec = c.sec ∧ b.key = c.key))
    (hrun : Block.run data c = some data') (hb : Settled b data) : Settled b data' := by
  rcases hb with hb | hb
  · obtain heq | ⟨-, -, -, hset⟩ := valueAt_run h hsec hrun b.sec b.tested
    · exact .inl (heq ▸ hb)
    · exact .inl (by simp [hset])
  · obtain heq | ⟨hs, hk, -⟩ := valueAt_run h hsec hrun b.sec b.key
    · exact .inr (heq ▸ hb)
    · exact absurd ⟨hs, hk⟩ hne

/-! ### A list of blocks -/

/-- What every block of a list keeps, the list keeps. -/
theorem foldlM_keeps {I : Json → Prop} {bs : List Block} {data : Json}
    (hsec : ∀ b ∈ bs, b.sec ∈ sections)
    (hstep : ∀ b ∈ bs, ∀ data data', Document data → Block.run data b = some data' →
      I data → I data')
    (h : Document data) (hI : I data) :
    ∃ data', bs.foldlM Block.run data = some data' ∧ Document data' ∧ I data' := by
  induction bs generalizing data with
  | nil => exact ⟨data, rfl, h, hI⟩
  | cons b bs ih =>
      obtain ⟨d, hd, hdoc, -⟩ := run_spec h b (hsec b List.mem_cons_self)
      have hId := hstep b List.mem_cons_self data d h hd hI
      rw [List.foldlM_cons, hd]
      exact ih (fun c hc => hsec c (List.mem_cons_of_mem b hc))
        (fun c hc => hstep c (List.mem_cons_of_mem b hc)) hdoc hId

/-- A list of blocks that set different members settles all of them. -/
theorem foldlM_settled {bs : List Block} {data data' : Json}
    (hsec : ∀ b ∈ bs, b.sec ∈ sections)
    (hne : bs.Pairwise (fun b c => ¬ (b.sec = c.sec ∧ b.key = c.key)))
    (h : Document data) (hrun : bs.foldlM Block.run data = some data') :
    ∀ b ∈ bs, Settled b data' := by
  induction bs generalizing data with
  | nil => simp
  | cons b bs ih =>
      obtain ⟨hb, hbs⟩ := List.pairwise_cons.mp hne
      obtain ⟨d, hd, hdoc, -⟩ := run_spec h b (hsec b List.mem_cons_self)
      have hsec' : ∀ c ∈ bs, c.sec ∈ sections := fun c hc => hsec c (List.mem_cons_of_mem b hc)
      rw [List.foldlM_cons, hd] at hrun
      -- The head is settled by its own run, and the others do not touch its member.
      obtain ⟨d', hd', -, hsettled⟩ := foldlM_keeps (I := Settled b) hsec'
        (fun c hc _ _ hdoc hrun hset => settled_of_run hdoc (hsec' c hc) (hb c hc) hrun hset)
        hdoc (settled_run h (hsec b List.mem_cons_self) hd)
      obtain rfl : d' = data' := by
        rw [Option.bind_eq_bind, Option.bind_some, hd'] at hrun
        exact Option.some.inj hrun
      intro c hc
      rcases List.mem_cons.mp hc with rfl | hc
      · exact hsettled
      · exact ih hsec' hbs hdoc hd' c hc

/-- Settled blocks leave the document as it is. -/
theorem foldlM_of_settled {bs : List Block} {data : Json} (hsec : ∀ b ∈ bs, b.sec ∈ sections)
    (h : Document data) (hset : ∀ b ∈ bs, Settled b data) :
    bs.foldlM Block.run data = some data := by
  induction bs with
  | nil => rfl
  | cons b bs ih =>
      rw [List.foldlM_cons,
        run_of_settled h (hsec b List.mem_cons_self) (hset b List.mem_cons_self)]
      exact ih (fun c hc => hsec c (List.mem_cons_of_mem b hc))
        (fun c hc => hset c (List.mem_cons_of_mem b hc))

/-! ### The blocks of the constructor -/

/-- The block that tests `thread` and sets `threads`. -/
def threadsBlock : Block :=
  { sec := "server", first := true, tested := "thread", key := "threads", value := .int 8 }

theorem blocks_eq (w : Install) : blocks w = threadsBlock :: (blocks w).tail := rfl

theorem sec_mem_sections (w : Install) : ∀ b ∈ blocks w, b.sec ∈ sections := by
  simp [blocks, block, sections]

theorem tested_eq_key (w : Install) : ∀ b ∈ (blocks w).tail, b.tested = b.key := by
  simp [blocks, block]

theorem pairwise_blocks (w : Install) :
    (blocks w).Pairwise (fun b c => ¬ (b.sec = c.sec ∧ b.key = c.key)) := by
  simp [blocks, block]

/-- A loaded document is loaded again as it is. -/
theorem load_load (w : Install) {data data' : Json} (h : Document data)
    (hrun : load w (some data) = some data') (hdoc : Document data') :
    load w (some data') = some data' :=
  foldlM_of_settled (sec_mem_sections w) hdoc
    (foldlM_settled (sec_mem_sections w) (pairwise_blocks w) h hrun)

/-- Reading and writing back keeps the document `doc`: every key keeps its value, only
absent keys are added, and doing it again changes nothing. -/
def LoadKeeps (w : Install) (doc : Json) : Prop :=
  ∃ doc', loadAndSave w true (some doc) = some (some doc') ∧ Keeps doc doc' ∧
    loadAndSave w true (some doc') = some (some doc')

theorem loadAndSave_eq {w : Install} {doc doc' : Json} :
    loadAndSave w true (some doc) = some (some doc') ↔ load w (some doc) = some doc' := by
  unfold loadAndSave save
  simp

/-- The document does not name `threads`, or gives it the default, or has the member
`thread` the code tests for. -/
def ThreadsKept (doc : Json) : Prop :=
  valueAt doc "server" "thread" ≠ none ∨
    ∀ v, valueAt doc "server" "threads" = some v → v = .int 8

theorem keeps_refl {doc : Json} (h : Document doc) : Keeps doc doc :=
  ⟨h, fun _ _ => rfl, fun _ _ _ _ hv => hv⟩

/-- After the first block the others keep every value, and `threads` too. -/
theorem load_of_threadsKept (w : Install) {doc : Json} (h : Document doc)
    (hkept : ThreadsKept doc) : ∃ doc', load w (some doc) = some doc' ∧ Keeps doc doc' := by
  have hstep : ∀ b ∈ (blocks w).tail, ∀ data data', Document data →
      Block.run data b = some data' → Keeps doc data → Keeps doc data' := by
    intro b hb data data' _ hrun hkeeps
    have hsec := sec_mem_sections w b (List.mem_of_mem_tail hb)
    exact run_keeps hsec (.inl (tested_eq_key w b hb)) hrun hkeeps
  obtain ⟨d, hd, hdoc, -⟩ := run_spec h threadsBlock (by decide)
  have hsec : threadsBlock.sec ∈ sections := by decide
  have hfirst : Keeps doc d := run_keeps hsec (.inr hkept) hd (keeps_refl h)
  obtain ⟨doc', hrun, -, hkeeps⟩ := foldlM_keeps
    (fun b hb => sec_mem_sections w b (List.mem_of_mem_tail hb)) hstep hdoc hfirst
  refine ⟨doc', ?_, hkeeps⟩
  show (blocks w).foldlM Block.run doc = some doc'
  rw [blocks_eq, List.foldlM_cons, hd]
  exact hrun

/-- Without the member `thread`, a loaded document has the default of `threads`. -/
theorem threads_of_load (w : Install) {doc doc' : Json} (h : Document doc)
    (hrun : load w (some doc) = some doc') (hnone : valueAt doc "server" "thread" = none) :
    valueAt doc' "server" "threads" = some (.int 8) := by
  have hother : ∀ b ∈ (blocks w).tail, ¬ ("server" = b.sec ∧ "threads" = b.key) :=
    (List.pairwise_cons.mp (blocks_eq w ▸ pairwise_blocks w)).1
  have hstep : ∀ b ∈ (blocks w).tail, ∀ data data', Document data →
      Block.run data b = some data' → valueAt data "server" "threads" = some (.int 8) →
      valueAt data' "server" "threads" = some (.int 8) := by
    intro b hb data data' hdoc hrun hv
    have hsec := sec_mem_sections w b (List.mem_of_mem_tail hb)
    obtain heq | ⟨hs, hk, -⟩ := valueAt_run hdoc hsec hrun "server" "threads"
    · rw [heq, hv]
    · exact absurd ⟨hs, hk⟩ (hother b hb)
  obtain ⟨d, hd, hdoc, ⟨hsome, -⟩ | ⟨-, -, hset, -⟩⟩ := run_spec h threadsBlock (by decide)
  · exact absurd hnone hsome
  · obtain ⟨doc'', hrun', -, hv⟩ := foldlM_keeps
      (fun b hb => sec_mem_sections w b (List.mem_of_mem_tail hb)) hstep hdoc hset
    have hload : (blocks w).foldlM Block.run doc = some doc' := hrun
    rw [blocks_eq, List.foldlM_cons, hd] at hload
    rw [Option.bind_eq_bind, Option.bind_some, hrun'] at hload
    exact Option.some.inj hload ▸ hv

end ConfigFile

open ConfigFile

/-- Reading and writing back keeps what the user wrote if and only if `threads` is not set
to another value than 8, or the member `thread` is there too. -/
theorem loadAndSave_keeps_iff (w : Install) (doc : Json) (h : Document doc) :
    LoadKeeps w doc ↔ ThreadsKept doc := by
  constructor
  · rintro ⟨doc', hrun, hkeeps, -⟩
    by_cases hthread : valueAt doc "server" "thread" = none
    · right
      intro v hv
      -- The value is overwritten by 8, so it can only be kept when it is 8.
      have hset := threads_of_load w h (loadAndSave_eq.mp hrun) hthread
      have hv' := hkeeps.inside "server" (by decide) "threads" v hv
      rw [hset] at hv'
      exact (Option.some.inj hv').symm
    · exact .inl hthread
  · intro hkept
    obtain ⟨doc', hrun, hkeeps⟩ := load_of_threadsKept w h hkept
    exact ⟨doc', loadAndSave_eq.mpr hrun, hkeeps,
      loadAndSave_eq.mpr (load_load w h hrun hkeeps.document)⟩

/-- The constants of an agent installed under `/usr/local`. -/
def localInstall : Install where
  webRoot := "/usr/local/lib/watched/webroot"
  sslKey := "/usr/local/etc/watched/ssl/agent.key"
  sslCert := "/usr/local/etc/watched/ssl/agent.pem"
  sslVrf := "/usr/local/etc/watched/ssl/agent.verify.pem"
  cfgSrv := "/usr/local/etc/watched/services"
  dllSrv := "/usr/local/lib/watched/services.cpp"
  luaSrv := "/usr/local/lib/watched/services.lua"
  dllColl := "/usr/local/lib/watched/collectors.cpp"
  luaColl := "/usr/local/lib/watched/collectors.lua"

/-- A configuration that sets the number of threads. -/
def threadsConfig (n : Int) : Json := .obj [("server", .obj [("threads", .int n)])]

theorem document_threadsConfig (n : Int) : Document (threadsConfig n) where
  root := trivial
  sect := by
    simp [sections, threadsConfig, Json.member?, List.lookup_cons]

theorem loadAndSave_keeps_default :
    Document (threadsConfig 8) ∧ ThreadsKept (threadsConfig 8) ∧
      LoadKeeps localInstall (threadsConfig 8) := by
  have hkept : ThreadsKept (threadsConfig 8) := .inr fun v hv => (Option.some.inj hv).symm
  exact ⟨document_threadsConfig 8, hkept,
    (loadAndSave_keeps_iff localInstall _ (document_threadsConfig 8)).mpr hkept⟩

/-- Four threads become eight. -/
theorem threads_overwritten :
    Document (threadsConfig 4) ∧ ¬ LoadKeeps localInstall (threadsConfig 4) := by
  refine ⟨document_threadsConfig 4, ?_⟩
  rintro ⟨doc', hrun, hkeeps, -⟩
  have hset := threads_of_load localInstall (document_threadsConfig 4)
    (loadAndSave_eq.mp hrun) rfl
  have hv := hkeeps.inside "server" (by decide) "threads" (.int 4) rfl
  rw [hset] at hv
  exact absurd hv (by simp)

end WatchedAgent.Proofs
