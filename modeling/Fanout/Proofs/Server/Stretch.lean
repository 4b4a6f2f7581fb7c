import Fanout.Proofs.Server.Extension

namespace Fanout.Server

variable {behaviour : Behaviour} {s s' s₁ : Server} {t u c call place more : Nat} {job job' : Job}
  {x x' : Connection} {failure : Failure} {closing : Option (Nat × Nat)}

theorem Sound.shut_of_ended {p : ClosePoint} (h : s.Sound) (hx : s.connections[c]? = some x)
    (hcall : x.calls[call]? = some (.close p)) (he : x.ending? call ≠ none) : s.IsShut c := by
  refine ⟨x, hx, (h.connections hx).shut hcall ?_⟩
  cases p <;> simp_all [Connection.ending?, Call.ending?, ClosePoint.isOver]

theorem Sound.shut_of_returns (h : s.Sound) (hc : s.Closes place call)
    (hp : s.registry[place]? = some c) (hr : s.Returns c call failure) : s.IsShut c := by
  obtain ⟨c', x, p, hp', hx, hcall⟩ := hc
  obtain rfl := Option.some.inj (hp.symm.trans hp')
  obtain ⟨x', hx', he⟩ := hr
  obtain rfl := Option.some.inj (hx.symm.trans hx')
  exact h.shut_of_ended hx hcall (by simp [he])

theorem Sound.shut_of_refusal {e : ServerError} (h : s.Sound)
    (ht : s.tasks[t]? = some (.refuse c call e)) (hx : s.connections[c]? = some x)
    (he : x.ending? call ≠ none) : s.IsShut c := by
  obtain ⟨rfl, -, x', hx', hr⟩ := h.fits ht
  obtain rfl := Option.some.inj (hx.symm.trans hx')
  obtain ⟨p, hc⟩ := hr.calls
  have hcall : x.calls[0]? = some (.close p) := by simp [hc]
  exact h.shut_of_ended hx hcall he

theorem own?_sendReply : (Job.done (s.sendReply c failure)).own? = none := by
  cases failure <;> rfl

theorem own?_shutdownReply (first : Option ServerError) :
    (Job.done (shutdownReply first)).own? = none := by
  cases first <;> rfl

theorem fits_sendReply : s₁.Fits (.done (s.sendReply c failure)) := by
  cases failure <;> trivial

theorem fits_shutdownReply (first : Option ServerError) : s.Fits (.done (shutdownReply first)) := by
  cases first <;> trivial

theorem isClosed_changeListener {f : Listener → Listener} {l : Nat} (k : Nat)
    (hf : ∀ listener, (f listener).closed = listener.closed) :
    (s.changeListener k f).isClosed l = s.isClosed l := by
  simp only [isClosed, changeListener, List.getElem?_modify]
  cases s.listeners[l]? with
  | none => rfl
  | some listener => by_cases hk : k = l <;> simp [hk, hf]

namespace Work

theorem frame (hw : Work s t job s₁ job') :
    s₁.lock = s.lock ∧ s₁.tasks = s.tasks ∧ s₁.listening = s.listening ∧ s₁.reaper = s.reaper ∧
      s₁.feed.raised = s.feed.raised := by
  cases hw with
  | sweepNext _ _ hs | sweepEnd _ _ hs => cases hs <;> exact ⟨rfl, rfl, rfl, rfl, rfl⟩
  | @closeEnd listener => cases listener <;> exact ⟨rfl, rfl, rfl, rfl, rfl⟩
  | _ => exact ⟨rfl, rfl, rfl, rfl, rfl⟩

theorem tasks_iff (hw : Work s t job s₁ job') (ht : s.tasks[t]? = some job) {u : Nat}
    {other : Job} : (s₁.moveTask t job job').tasks[u]? = some other ↔
      u = t ∧ other = job' ∨ u ≠ t ∧ s.tasks[u]? = some other := by
  simp only [moveTask, hw.frame.2.1]
  exact getElem?_set_eq_some ht

theorem moved_job (hw : Work s t job s₁ job') (ht : s.tasks[t]? = some job) :
    (s₁.moveTask t job job').tasks[t]? = some job' :=
  (hw.tasks_iff ht).mpr (.inl ⟨rfl, rfl⟩)

theorem isClosed_eq (hw : Work s t job s₁ job') (l : Nat) : s₁.isClosed l = s.isClosed l := by
  cases hw with
  | acceptReset => exact isClosed_changeListener _ fun _ => rfl
  | acceptPeer => exact isClosed_changeListener _ fun _ => rfl
  | sweepNext _ _ hs | sweepEnd _ _ hs => cases hs <;> rfl
  | @closeEnd listener =>
    cases listener with
    | none => rfl
    | some k => exact isClosed_changeListener k fun _ => rfl
  | _ => rfl

theorem undone (hw : Work s t job s₁ job') {reply : Reply} : job ≠ .done reply := by
  cases hw with
  | sweepNext sweeper | sweepEnd sweeper => cases sweeper <;> simp [Sweeper.job]
  | crash ha =>
    rintro rfl
    simp [awaited?] at ha
  | _ => simp

theorem held (h : s.Sound) (ht : s.tasks[t]? = some job) (hw : Work s t job s₁ job')
    (hj : job'.standing = .holding) : s.lock.isHeldBy t = true := by
  have stays (hj : job.standing = .holding) : s.lock.isHeldBy t = true :=
    h.lock.held t (by simp [ht, hj])
  cases hw with
  | broadcastNext ha | closeNext ha =>
    cases ha with
    | first held => exact held
    | next => exact stays rfl
  | findHost held => exact held
  | sweepNext sweeper _ hs =>
    cases hs with
    | first held => exact held
    | evict => cases sweeper <;> exact stays rfl
  | sweepEnd sweeper => cases sweeper <;> simp [Sweeper.rest, Job.standing] at hj
  | _ => simp [Job.standing] at hj

theorem own_origin (hw : Work s t job s₁ job') (ho : job'.own? = some c) :
    job.own? = some c ∨ c = s.connections.length := by
  cases hw with
  | acceptPeer => exact .inr (Option.some.inj ho).symm
  | enlist | refuse => exact .inl ho
  | broadcastFailed | sentTo => simp [own?_sendReply] at ho
  | sweepNext sweeper | sweepEnd sweeper =>
    cases sweeper <;> simp [Sweeper.rest, Sweeper.job, Job.own?] at ho
  | closeEnd => simp [own?_shutdownReply] at ho
  | _ => simp [Job.own?] at ho

theorem own_kept (h : s.Sound) (ht : s.tasks[t]? = some job) (hw : Work s t job s₁ job')
    (ho : job.own? = some c) : job'.own? = some c ∨ s.IsShut c := by
  cases hw with
  | enlist | refuse => exact .inl ho
  | refused hr =>
    obtain rfl := Option.some.inj ho
    obtain ⟨x, hx, he⟩ := hr
    exact .inr (h.shut_of_refusal ht hx (by simp [he]))
  | crash ha hc =>
    match job, ht, ho, ha with
    | .refuse c₁ call₁ e, ht, ho, ha =>
      obtain rfl := Option.some.inj ho
      obtain ⟨rfl, rfl⟩ := Prod.mk.inj (Option.some.inj ha)
      obtain ⟨x, hx, he⟩ := hc
      exact .inr (h.shut_of_refusal ht hx (by simp [he]))
    | .register _ _, _, _, ha | .done (.accepted _), _, _, ha => simp [awaited?] at ha
  | sweepNext sweeper | sweepEnd sweeper => cases sweeper <;> simp [Sweeper.job, Job.own?] at ho
  | _ => simp [Job.own?] at ho

theorem registered (hw : Work s t job s₁ job') (hc : c ∈ s₁.registry) :
    c ∈ s.registry ∨ job' = .done (.accepted c) := by
  cases hw with
  | enlist =>
    rcases List.mem_append.mp hc with hold | hnew
    · exact .inl hold
    · exact .inr (by rw [List.mem_singleton.mp hnew])
  | sweepNext _ _ hs | sweepEnd _ _ hs =>
    cases hs with
    | first => exact .inl hc
    | evict => exact .inl (List.mem_of_mem_eraseIdx hc)
  | @closeEnd listener => cases listener <;> simp [releaseListener, changeListener] at hc
  | _ => exact .inl hc

theorem known (hw : Work s t job s₁ job') (hx : s₁.connections[c]? = some x') :
    (∃ x, s.connections[c]? = some x) ∨ x'.Unheard ∧ x'.Sound ∧ job'.own? = some c := by
  have set_known {d : Nat} {y : Connection} (hy : (s.connections.set d y)[c]? = some x') :
      ∃ x, s.connections[c]? = some x := by
    obtain ⟨hlt, -⟩ := List.getElem?_eq_some_iff.mp hy
    rw [List.length_set] at hlt
    exact ⟨_, List.getElem?_eq_getElem hlt⟩
  cases hw with
  | acceptPeer _ opened =>
    rcases getElem?_concat_eq_some.mp hx with ⟨rfl, rfl⟩ | hold
    · exact .inr ⟨Connection.unheard_ofStream opened, Connection.sound_ofStream opened, rfl⟩
    · exact .inl ⟨x', hold⟩
  | enlist | refuse | broadcastNext | findHost | closeNext => exact .inl (set_known hx)
  | sweepNext _ _ hs => cases hs <;> exact .inl (set_known hx)
  | sweepEnd _ _ hs => cases hs <;> exact .inl ⟨x', hx⟩
  | @closeEnd listener => cases listener <;> exact .inl ⟨x', hx⟩
  | _ => exact .inl ⟨x', hx⟩

end Work

theorem Arrives.held (h : s.Sound) (ht : s.tasks[t]? = some job)
    (ha : s.Arrives t closing place failure) (hj : closing ≠ none → job.standing = .holding) :
    s.lock.isHeldBy t = true := by
  cases ha with
  | first held => exact held
  | next => exact h.lock.held t (by simp [ht, hj])

theorem Cleared.held (h : s.Sound) {sweeper : Sweeper} {evicted : Nat}
    (ht : s.tasks[t]? = some (sweeper.job evicted closing)) (hs : s.Cleared t closing s₁ more) :
    s.lock.isHeldBy t = true := by
  cases hs with
  | first held => exact held
  | evict =>
    refine h.lock.held t ?_
    cases sweeper <;> simp [ht, Sweeper.job, Job.standing]

theorem Sound.closes_of_sweep (h : s.Sound) {sweeper : Sweeper} {evicted : Nat}
    (ht : s.tasks[t]? = some (sweeper.job evicted (some (place, call)))) : s.Closes place call := by
  cases sweeper <;> exact h.fits ht

theorem Sound.shut_before (h : s.Sound) {listener : Option Nat} {first : Option ServerError}
    (ht : s.tasks[t]? = some (.closeAll listener first closing))
    (ha : s.Arrives t closing place failure) {i : Nat} (hi : i < place)
    (hc : s.registry[i]? = some c) : s.IsShut c := by
  cases ha with
  | first => simp at hi
  | @next earlier call c' _ hp hr =>
    obtain ⟨hcloses, hbefore⟩ := h.fits ht
    by_cases hie : i = earlier
    · subst hie
      exact h.shut_of_returns hcloses hc (Option.some.inj (hp.symm.trans hc) ▸ hr)
    · exact hbefore i c (by omega) hc

theorem Cleared.extension (h : s.Sound) {sweeper : Sweeper} {evicted : Nat}
    (ht : s.tasks[t]? = some (sweeper.job evicted closing)) (hs : s.Cleared t closing s₁ more) :
    s.Extends t s₁ := by
  have held := hs.held h ht
  cases hs with
  | first => exact extends_of_same rfl rfl
  | @evict place call c failure hp hr =>
    have hc := h.closes_of_sweep ht
    refine ⟨grows_same t, .inr held, ?_⟩
    intro d hd
    by_cases hcd : d = c
    · subst hcd
      exact .inr (h.shut_of_returns hc hp hr)
    · refine .inl (List.mem_eraseIdx_iff_getElem?.mpr ?_)
      obtain ⟨i, hi⟩ := List.mem_iff_getElem?.mp hd
      refine ⟨i, ?_, hi⟩
      rintro rfl
      exact hcd (Option.some.inj (hi.symm.trans hp))

theorem extends_clear (h : s.Sound) {listener : Option Nat} {first : Option ServerError}
    (ht : s.tasks[t]? = some (.closeAll listener first closing))
    (ha : s.Arrives t closing place failure) (hp : s.registry[place]? = none) :
    s.Extends t ({ s with registry := [] }.releaseListener listener) := by
  have held := ha.held h ht (by cases closing <;> simp [Job.standing])
  have hconns : ({ s with registry := [] }.releaseListener listener).connections =
      s.connections := by
    cases listener <;> rfl
  refine ⟨?_, .inr held, ?_⟩
  · rw [hconns]
    exact grows_same t
  · intro c hc
    obtain ⟨i, hi⟩ := List.mem_iff_getElem?.mp hc
    obtain ⟨hlt, -⟩ := List.getElem?_eq_some_iff.mp hi
    have hlen := List.getElem?_eq_none_iff.mp hp
    have hshut := h.shut_before ht ha (Nat.lt_of_lt_of_le hlt hlen) hi
    exact .inr (by simpa only [IsShut, hconns] using hshut)

namespace Work

theorem extension (h : s.Sound) (ht : s.tasks[t]? = some job) (hw : Work s t job s₁ job') :
    s.Extends t s₁ := by
  have registered {d i : Nat} (hi : s.registry[i]? = some d) : s.Calls t d :=
    .inl (h.given (List.mem_of_getElem? hi))
  cases hw with
  | acceptPeer => exact ⟨grows_concat t _, .inl rfl, .inl⟩
  | @enlist l c x held hl hx =>
    have hset : s.Extends t (s.setConnection c x.listen.1) :=
      extends_setConnection hx (Connection.turn_listen x) fun _ => .inr ⟨_, ht, rfl⟩
    exact ⟨hset.connections, .inr held, fun hm => .inl (List.mem_append_left _ hm)⟩
  | refuse held hl hx =>
    have hset := extends_setConnection hx .close fun _ => .inr ⟨_, ht, rfl⟩
    exact ⟨hset.connections, .inl rfl, .inl⟩
  | broadcastNext _ hp hx => exact extends_setConnection hx (.send _) fun _ => registered hp
  | findHost _ hf hx =>
    exact extends_setConnection hx (.send _) fun _ => .inl (h.given (List.mem_of_find?_eq_some hf))
  | sweepNext sweeper evicted hs hp hx =>
    have hext := hs.extension h ht
    refine hext.setConnection hs.frame.2.2 hx .close fun _ => .inl (h.given ?_)
    cases hs with
    | first => exact List.mem_of_getElem? hp
    | evict => exact List.mem_of_mem_eraseIdx (List.mem_of_getElem? hp)
  | sweepEnd sweeper evicted hs => exact hs.extension h ht
  | closeNext _ hp hx => exact extends_setConnection hx .close fun _ => registered hp
  | closeEnd ha hp => exact extends_clear h ht ha hp
  | _ => exact extends_of_same rfl rfl

theorem fits (h : s.Sound) (ht : s.tasks[t]? = some job) (hw : Work s t job s₁ job') :
    s₁.Fits job' := by
  have set_at {d : Nat} {y y' : Connection} (hy : s.connections[d]? = some y) :
      (s.connections.set d y')[d]? = some y' :=
    (getElem?_set_eq_some hy).mpr (.inl ⟨rfl, rfl⟩)
  have closing_at (y : Connection) : y.beginClose.calls[y.calls.length]? = some (.close .queued) :=
    getElem?_concat_eq_some.mpr (.inl ⟨rfl, rfl⟩)
  cases hw with
  | acceptPeer _ opened =>
    exact ⟨_, getElem?_concat_eq_some.mpr (.inl ⟨rfl, rfl⟩), Connection.unheard_ofStream opened⟩
  | enlist _ _ hx => exact ⟨_, set_at hx, .inl (List.mem_append_right _ List.mem_cons_self)⟩
  | @refuse l c x held hl hx =>
    obtain ⟨x', hx', hun⟩ := h.fits ht
    obtain rfl := Option.some.inj (hx.symm.trans hx')
    exact ⟨by simp [hun.calls], rfl, _, set_at hx, hun.beginClose (h.connections hx)⟩
  | broadcastNext _ hp => exact ⟨_, hp⟩
  | broadcastFailed | sentTo => exact fits_sendReply
  | findHost _ hf => exact List.mem_of_find?_eq_some hf
  | @sweepNext closing s₂ more place c x sweeper evicted hs hp hx =>
    have hcloses : (s₂.setConnection c x.beginClose).Closes place x.calls.length :=
      ⟨c, _, _, hp, by simpa only [setConnection, hs.frame.2.2] using set_at hx, closing_at x⟩
    cases sweeper <;> exact hcloses
  | sweepEnd sweeper => cases sweeper <;> trivial
  | closeNext ha hp hx =>
    refine ⟨⟨_, _, _, hp, set_at hx, closing_at _⟩, ?_⟩
    intro earlier d hlt hd
    have hext := extends_setConnection (t := t) hx .close fun _ =>
      .inl (h.given (List.mem_of_getElem? hp))
    exact hext.isShut (h.shut_before ht ha hlt hd)
  | closeEnd => exact fits_shutdownReply _
  | _ => trivial

end Work

end Fanout.Server
