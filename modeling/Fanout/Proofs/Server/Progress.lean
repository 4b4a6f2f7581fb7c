import Fanout.Proofs.Server.Stretch

namespace Fanout.Server

variable {s : Server} {t l c call : Nat} {job : Job} {x : Connection}

def Knows (s : Server) : Prop :=
  ∀ c ∈ s.registry, ∃ x, s.connections[c]? = some x

theorem Sound.knows (h : s.Sound) : s.Knows := by
  intro c hc
  obtain ⟨x, hx, -⟩ := h.given_fits (h.given hc)
  exact ⟨x, hx⟩

theorem beginSend_eq (hx : s.connections[c]? = some x) (payload : List UInt8) :
    s.beginSend c payload = some (x.calls.length, s.setConnection c (x.beginSend payload)) := by
  simp [Server.beginSend, hx]

theorem beginClose_eq (hx : s.connections[c]? = some x) :
    s.beginClose c = some (x.calls.length, s.setConnection c x.beginClose) := by
  simp [Server.beginClose, hx]

namespace Knows

theorem at_place (h : s.Knows) {place : Nat} (hp : s.registry[place]? = some c) :
    ∃ x, s.connections[c]? = some x :=
  h c (List.mem_of_getElem? hp)

theorem evict (h : s.Knows) (place : Nat) : (s.evict place).Knows :=
  fun c hc => h c (List.mem_of_mem_eraseIdx hc)

theorem broadcastFrom (h : s.Knows) (t : Nat) (payload : List UInt8) (place : Nat) :
    (s.broadcastFrom t payload place).isSome = true := by
  cases hp : s.registry[place]? with
  | none => simp [Server.broadcastFrom, hp]
  | some c =>
    obtain ⟨x, hx⟩ := h.at_place hp
    simp [Server.broadcastFrom, hp, beginSend_eq hx]

theorem sendToFirst (h : s.Knows) (t : Nat) (address : String) (payload : List UInt8) :
    (s.sendToFirst t address payload).isSome = true := by
  cases hf : s.registry.find? fun c => s.hostOf c == address with
  | none => simp [Server.sendToFirst, hf]
  | some c =>
    obtain ⟨x, hx⟩ := h c (List.mem_of_find?_eq_some hf)
    simp [Server.sendToFirst, hf, beginSend_eq hx]

theorem sweep (h : s.Knows) : s.sweep.isSome = true := by
  cases hf : s.registry.findIdx? fun c => !s.isConnected c with
  | none => simp [Server.sweep, hf]
  | some place =>
    obtain ⟨hlt, -⟩ := List.findIdx?_eq_some_iff_getElem.mp hf
    have hp : s.registry[place]? = some s.registry[place] := List.getElem?_eq_getElem hlt
    obtain ⟨x, hx⟩ := h.at_place hp
    simp [Server.sweep, hf, hp, beginClose_eq hx]

theorem reapFrom (h : s.Knows) (t evicted : Nat) : (s.reapFrom t evicted).isSome = true := by
  obtain ⟨⟨closing, s₁⟩, hs⟩ := Option.isSome_iff_exists.mp h.sweep
  cases closing <;> simp [Server.reapFrom, hs]

theorem reaperFrom (h : s.Knows) (t : Nat) (cancelled : Bool) (next evicted : Nat) :
    (s.reaperFrom t cancelled next evicted).isSome = true := by
  obtain ⟨⟨closing, s₁⟩, hs⟩ := Option.isSome_iff_exists.mp h.sweep
  cases closing <;> simp [Server.reaperFrom, hs]

theorem closeFrom (h : s.Knows) (t : Nat) (listener : Option Nat) (failure : Option ServerError)
    (place : Nat) : (s.closeFrom t listener failure place).isSome = true := by
  cases hp : s.registry[place]? with
  | none => simp [Server.closeFrom, hp]
  | some c =>
    obtain ⟨x, hx⟩ := h.at_place hp
    simp [Server.closeFrom, hp, beginClose_eq hx]

end Knows

theorem register_goes_on (hx : s.connections[c]? = some x) (t l : Nat) :
    (s.register t l c).isSome = true := by
  have refused {s₁ : Server} {y : Connection} (hy : s₁.connections[c]? = some y)
      (e : ServerError) : (s₁.refuse t c e).isSome = true := by
    have hy' : (s₁.leave t).connections[c]? = some y := hy
    simp [refuse, beginClose_eq hy']
  have hx' : s.countOn.connections[c]? = some x := hx
  unfold register
  dsimp only
  split
  · exact refused hx' _
  · simp only [hx', Option.bind_eq_bind, Option.bind_some]
    cases x.listen.2 with
    | none => rfl
    | some e => exact refused ((getElem?_set_eq_some hx).mpr (.inl ⟨rfl, rfl⟩)) _

theorem standing_of_awaited (ha : s.awaited? job = some (c, call)) : job.standing ≠ .waiting := by
  match job with
  | .register .. | .broadcast _ none | .sendTo _ _ none | .reap _ none
  | .reaper _ _ (some (_, none)) | .closeAll _ _ none | .count | .list => simp [awaited?] at ha
  | .broadcast _ (some _) | .sendTo _ _ (some _) | .reap _ (some _) | .reaper _ _ (some (_, some _))
  | .closeAll _ _ (some _) | .accept .. | .refuse .. | .send .. | .close .. | .reaper _ _ none
  | .stopReaper .. | .done _ | .crashed => simp [Job.standing]

theorem Sound.holder_goes_on (h : s.Sound) (ht : s.tasks[t]? = some job)
    (hj : job.standing = .waiting) (held : s.lock.isHeldBy t = true) :
    (s.resume t).isSome = true := by
  suffices hp : (s.proceed t job).isSome = true by
    cases ha : s.awaited? job with
    | none => simpa [resume, ht, ha] using hp
    | some call => exact absurd hj (standing_of_awaited ha)
  match job, h.fits ht with
  | .register l c, ⟨x, hx, _⟩ => simpa [proceed, held] using register_goes_on hx t l
  | .broadcast payload none, _ => simpa [proceed, held] using h.knows.broadcastFrom t payload 0
  | .sendTo address payload none, _ =>
    simpa [proceed, held] using h.knows.sendToFirst t address payload
  | .reap evicted none, _ => simpa [proceed, held] using h.knows.reapFrom t evicted
  | .reaper cancelled next (some (evicted, none)), _ =>
    simpa [proceed, held] using h.knows.reaperFrom t cancelled next evicted
  | .closeAll listener failure none, _ =>
    simpa [proceed, held] using h.knows.closeFrom t listener failure 0
  | .count, _ | .list, _ => simp [proceed, held]
  | .broadcast _ (some _), _ | .sendTo _ _ (some _), _ | .reap _ (some _), _
  | .reaper _ _ (some (_, some _)), _ | .closeAll _ _ (some _), _ | .accept .., _ | .refuse .., _
  | .send .., _ | .close .., _ | .reaper _ _ none, _ | .stopReaper .., _ | .done _, _
  | .crashed, _ => simp [Job.standing] at hj

theorem Knows.after_call (h : s.Knows) (ha : s.awaited? job = some (c, call)) (t : Nat)
    (failure : Failure) : (s.afterCall t failure job).isSome = true := by
  match job with
  | .broadcast payload (some (place, call)) =>
    obtain ⟨d, hp, -⟩ := Option.map_eq_some_iff.mp ha
    cases failure with
    | none => exact h.broadcastFrom t payload (place + 1)
    | some e => simp [afterCall, hp]
  | .reap evicted (some (place, call)) => exact (h.evict place).reapFrom t (evicted + 1)
  | .reaper cancelled next (some (evicted, some (place, call))) =>
    exact (h.evict place).reaperFrom t cancelled next (evicted + 1)
  | .closeAll listener first (some (place, call)) => exact h.closeFrom t listener _ (place + 1)
  | .refuse .. | .sendTo _ _ (some _) | .send .. | .close .. => rfl
  | .accept .. | .register .. | .broadcast _ none | .sendTo _ _ none | .reap _ none
  | .reaper _ _ none | .reaper _ _ (some (_, none)) | .stopReaper .. | .closeAll _ _ none | .count
  | .list | .done _ | .crashed => simp [awaited?] at ha

theorem Sound.caller_goes_on {ending : CallEnd} (h : s.Sound) (ht : s.tasks[t]? = some job)
    (ha : s.awaited? job = some (c, call)) (hx : s.connections[c]? = some x)
    (he : x.ending? call = some ending) : (s.resume t).isSome = true := by
  cases ending with
  | crashed => simp [resume, ht, ha, hx, he]
  | returned failure => simpa [resume, ht, ha, hx, he] using h.knows.after_call ha t failure

end Fanout.Server
