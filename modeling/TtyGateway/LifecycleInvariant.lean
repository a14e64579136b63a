import TtyGateway.Lifecycle

namespace TtyGateway

/-- What a client's own record says about itself. -/
structure Client.Ok (x : Client) : Prop where
  early : x.stage = .early → x.session = none
  placed : x.session = none → x.stage = .early ∨ x.stage = .refusing ∨ x.stage = .gone
  holding : x.stage = .holding → x.resumed = false
  feed : x.feed ≠ .off → x.session ≠ none
  fed : x.feed ≠ .off → x.stage = .live ∨ x.stage = .closing ∨ x.stage = .reported ∨
    x.stage = .leaving ∨ x.stage = .gone

/-- Every session was created by exactly one connection and is known before it is used. -/
structure Life.Owned (v : Life) : Prop where
  ok : ∀ c, (v.client c).Ok
  known : ∀ c i, (v.client c).session = some i → v.ssh i ≠ none
  listed : ∀ i ∈ v.registered, v.ssh i ≠ none
  origin : ∀ i, v.ssh i ≠ none → ∃ c, (v.client c).session = some i ∧ (v.client c).resumed = false
  creator : ∀ c d i, (v.client c).session = some i → (v.client d).session = some i →
    (v.client c).resumed = false → (v.client d).resumed = false → c = d

theorem LifeStep.ok {v v' : Life} {l : LifeLabel} (h : LifeStep v l v')
    (ok : ∀ c, (v.client c).Ok) : ∀ c, (v'.client c).Ok := by
  intro c
  have hc := ok c
  cases h with
  | quiet => exact hc
  | finish => exact hc
  | _ => constructor <;> grind [Client.Ok]

theorem LifeStep.keeps_session {v v' : Life} {l : LifeLabel} (h : LifeStep v l v')
    (ok : ∀ c, (v.client c).Ok) {c : ConnId} {i : SessionId}
    (hc : (v.client c).session = some i) :
    (v'.client c).session = some i ∧ (v'.client c).resumed = (v.client c).resumed ∧
      (v'.client c).account = (v.client c).account := by
  have hearly := (ok c).early
  cases h <;> grind

theorem LifeStep.session_cases {v v' : Life} {l : LifeLabel} (h : LifeStep v l v')
    (ok : ∀ c, (v.client c).Ok) {c : ConnId} {i : SessionId}
    (hc : (v'.client c).session = some i) :
    ((v.client c).session = some i ∧ (v'.client c).resumed = (v.client c).resumed ∧
      (v'.client c).account = (v.client c).account) ∨
    (l = .create c i ∧ v.ssh i = none ∧ (v'.client c).resumed = false) ∨
    (l = .attach c i ∧ i ∈ v.registered ∧ (v'.client c).resumed = true) := by
  have hearly := (ok c).early
  cases h <;> grind

theorem LifeStep.stage_of_create {v v' : Life} {c : ConnId} {i : SessionId}
    (h : LifeStep v (.create c i) v') : (v'.client c).stage = .holding := by
  cases h
  simp [Life.setClient_client]

/-- Sessions do not vanish, and only `create` makes one. -/
theorem LifeStep.ssh_cases {v v' : Life} {l : LifeLabel} (h : LifeStep v l v') (i : SessionId) :
    v'.ssh i = v.ssh i ∨
    (∃ c, l = .create c i ∧ v.ssh i = none ∧ v'.ssh i = some true) ∨
    (l = .finish i ∧ v.ssh i = some true ∧ v'.ssh i = some false) := by
  cases h with
  | @create c j hs hn =>
    by_cases hij : i = j
    · subst j
      exact Or.inr (Or.inl ⟨c, rfl, hn, by simp [Life.spawn_ssh]⟩)
    · exact Or.inl (by simp [Life.spawn_ssh, hij])
  | @finish j hj =>
    by_cases hij : i = j
    · subst j
      exact Or.inr (Or.inr ⟨rfl, hj, by simp [Life.finish_ssh]⟩)
    · exact Or.inl (by simp [Life.finish_ssh, hij])
  | _ => exact Or.inl rfl

theorem LifeStep.registered_cases {v v' : Life} {l : LifeLabel} (h : LifeStep v l v')
    {i : SessionId} (hi : i ∈ v'.registered) : i ∈ v.registered ∨ ∃ c, l = .create c i := by
  cases h with
  | @create c j hs hn =>
    rcases hi with rfl | hi
    · exact Or.inr ⟨c, rfl⟩
    · exact Or.inl hi
  | _ => grind

theorem LifeStep.ssh_ne_none {v v' : Life} {l : LifeLabel} (h : LifeStep v l v') {i : SessionId}
    (hi : v.ssh i ≠ none) : v'.ssh i ≠ none := by
  rcases h.ssh_cases i with he | ⟨_, _, _, he⟩ | ⟨_, _, he⟩
  · rwa [he]
  · simp [he]
  · simp [he]

theorem LifeStep.owned {v v' : Life} {l : LifeLabel} (h : LifeStep v l v') (hv : v.Owned) :
    v'.Owned := by
  refine ⟨h.ok hv.ok, fun c i hc => ?_, fun i hi => ?_, fun i hi => ?_, fun c d i hc hd rc rd => ?_⟩
  · rcases h.session_cases hv.ok hc with ⟨hc, -⟩ | ⟨rfl, hn, -⟩ | ⟨rfl, hi, -⟩
    · exact h.ssh_ne_none (hv.known c i hc)
    · cases h
      simp [Life.spawn_ssh]
    · exact h.ssh_ne_none (hv.listed i hi)
  · rcases h.registered_cases hi with hi | ⟨c, rfl⟩
    · exact h.ssh_ne_none (hv.listed i hi)
    · cases h
      simp [Life.spawn_ssh]
  · by_cases hn : v.ssh i = none
    · rcases h.ssh_cases i with he | ⟨c, rfl, -⟩ | ⟨-, he, -⟩
      · exact absurd (he.trans hn) hi
      · cases h
        exact ⟨c, by simp [Life.setClient_client], by simp [Life.setClient_client]⟩
      · simp [hn] at he
    · obtain ⟨c, hc, rc⟩ := hv.origin i hn
      obtain ⟨hc', rc', -⟩ := h.keeps_session hv.ok hc
      exact ⟨c, hc', rc'.trans rc⟩
  · rcases h.session_cases hv.ok hc with ⟨hc, ec, -⟩ | ⟨hl, hn, -⟩ | ⟨-, -, ec⟩
    · rcases h.session_cases hv.ok hd with ⟨hd, ed, -⟩ | ⟨hl, hn, -⟩ | ⟨-, -, ed⟩
      · exact hv.creator c d i hc hd (ec ▸ rc) (ed ▸ rd)
      · exact absurd hn (hv.known c i hc)
      · simp [rd] at ed
    · rcases h.session_cases hv.ok hd with ⟨hd, -, -⟩ | ⟨hl', -, -⟩ | ⟨-, -, ed⟩
      · exact absurd hn (hv.known d i hd)
      · exact (LifeLabel.create.inj (hl.symm.trans hl')).1
      · simp [rd] at ed
    · simp [rc] at ec

/-- The slot calls made so far, against who is where. -/
structure Life.Billed (v : Life) : Prop where
  opened : ∀ a i, .opened a i ∈ v.calls → ∃ c, (v.client c).session = some i ∧
    (v.client c).resumed = false ∧ (v.client c).account = a ∧ (v.client c).stage ≠ .holding
  granted : ∀ c i, (v.client c).session = some i → (v.client c).resumed = false →
    (v.client c).stage ≠ .holding → i ∈ v.registered → .opened (v.client c).account i ∈ v.calls
  refused : ∀ a i, .refused a i ∈ v.calls → i ∉ v.registered ∧ v.ssh i ≠ none
  answered : ∀ a i, .refused a i ∈ v.calls → (∀ b, .opened b i ∉ v.calls) ∧
    ∀ c, (v.client c).session = some i → (v.client c).resumed = false →
      (v.client c).stage ≠ .holding
  closed : ∀ a i, .closed a i ∈ v.calls → v.ssh i ≠ none ∧
    (i ∉ v.registered ∨ ∃ c, (v.client c).session = some i ∧ (v.client c).stage = .reported)
  reported : ∀ c i, (v.client c).session = some i → (v.client c).stage = .reported →
    ∃ a, .closed a i ∈ v.calls
  removed : ∀ i, v.ssh i ≠ none → i ∉ v.registered →
    (∃ a, .refused a i ∈ v.calls) ∨ ∃ a, .closed a i ∈ v.calls
  drained : ∀ c i, (v.client c).session = some i → (v.client c).feed = .drained →
    v.ssh i = some false
  told : ∀ c ∈ v.told, (v.client c).feed = .ended ∧
    ∃ i, (v.client c).session = some i ∧ v.ssh i = some false

theorem LifeStep.calls_mono {v v' : Life} {l : LifeLabel} (h : LifeStep v l v') {x : SlotCall}
    (hx : x ∈ v.calls) : x ∈ v'.calls := by
  cases h <;> simp [hx]

theorem LifeStep.calls_cases {v v' : Life} {l : LifeLabel} (h : LifeStep v l v') :
    v'.calls = v.calls ∨ ∃ x, v'.calls = v.calls ++ [x] ∧
      ((∃ c i, l = .accept c i ∧ x = .opened (v.client c).account i) ∨
      (∃ c i, l = .refuse c i ∧ x = .refused (v.client c).account i) ∨
      ∃ c i, l = .close c i ∧ x = .closed (v.client c).account i) := by
  cases h with
  | @accept c i => exact Or.inr ⟨_, rfl, Or.inl ⟨c, i, rfl, rfl⟩⟩
  | @refuse c i => exact Or.inr ⟨_, rfl, Or.inr (Or.inl ⟨c, i, rfl, rfl⟩)⟩
  | @close c i => exact Or.inr ⟨_, rfl, Or.inr (Or.inr ⟨c, i, rfl, rfl⟩)⟩
  | _ => exact Or.inl rfl

theorem LifeStep.call_cases {v v' : Life} {l : LifeLabel} (h : LifeStep v l v') {x : SlotCall}
    (hx : x ∈ v'.calls) : x ∈ v.calls ∨
      (∃ c i, l = .accept c i ∧ x = .opened (v.client c).account i) ∨
      (∃ c i, l = .refuse c i ∧ x = .refused (v.client c).account i) ∨
      ∃ c i, l = .close c i ∧ x = .closed (v.client c).account i := by
  rcases h.calls_cases with he | ⟨y, he, hy⟩
  · exact Or.inl (he ▸ hx)
  · rw [he] at hx
    rcases List.mem_append.mp hx with hx | hx
    · exact Or.inl hx
    · obtain rfl := List.mem_singleton.mp hx
      exact Or.inr hy

theorem Client.Ok.not_early {x : Client} (h : x.Ok) {i : SessionId} (hi : x.session = some i) :
    x.stage ≠ .early := by
  intro he
  simp [h.early he] at hi

theorem LifeStep.not_holding {v v' : Life} {l : LifeLabel} (h : LifeStep v l v')
    (ok : ∀ c, (v.client c).Ok) {c : ConnId} {i : SessionId} (hc : (v.client c).session = some i)
    (hs : (v.client c).stage ≠ .holding) : (v'.client c).stage ≠ .holding := by
  have hearly := (ok c).not_early hc
  cases h <;> grind

theorem LifeStep.stays_gone {v v' : Life} {l : LifeLabel} (h : LifeStep v l v') {c : ConnId}
    (hs : (v.client c).stage = .gone) : (v'.client c).stage = .gone := by
  cases h <;> grind

/-- A connection that holds a fresh session gets past `holding` by an answer of the hook. -/
theorem LifeStep.leaves_holding {v v' : Life} {l : LifeLabel} (h : LifeStep v l v')
    {c : ConnId} {i : SessionId} (hc : (v.client c).session = some i)
    (hs : (v.client c).stage = .holding) :
    (v'.client c).stage = .holding ∨ l = .accept c i ∨ l = .refuse c i := by
  cases h <;> grind

theorem LifeStep.unregistered {v v' : Life} {l : LifeLabel} (h : LifeStep v l v') {i : SessionId}
    (hi : i ∉ v.registered) (hn : v.ssh i ≠ none) : i ∉ v'.registered := by
  intro hi'
  rcases h.registered_cases hi' with hi' | ⟨c, rfl⟩
  · exact hi hi'
  · cases h with
    | create _ hnone => exact hn hnone

theorem LifeStep.removes {v v' : Life} {l : LifeLabel} (h : LifeStep v l v') {i : SessionId}
    (hi : i ∈ v.registered) (hi' : i ∉ v'.registered) :
    (∃ c, l = .refuse c i) ∨ ∃ c, l = .release c i ∧ (v.client c).stage = .reported ∧
      (v.client c).session = some i := by
  cases h with
  | @refuse c j =>
    have hij : i = j := by
      by_contra hne
      exact hi' ⟨hi, hne⟩
    exact Or.inl ⟨c, by rw [hij]⟩
  | @release c j hs hc =>
    have hij : i = j := by
      by_contra hne
      exact hi' ⟨hi, hne⟩
    exact Or.inr ⟨c, by rw [hij], hs, by rw [hij]; exact hc⟩
  | create => exact absurd (Or.inr hi) hi'
  | _ => exact absurd hi hi'

theorem LifeStep.leaves_reported {v v' : Life} {l : LifeLabel} (h : LifeStep v l v') {c : ConnId}
    {i : SessionId} (hc : (v.client c).session = some i) (hs : (v.client c).stage = .reported) :
    (v'.client c).stage = .reported ∨ i ∉ v'.registered := by
  cases h <;> grind

theorem LifeStep.stays_finished {v v' : Life} {l : LifeLabel} (h : LifeStep v l v')
    {i : SessionId} (hi : v.ssh i = some false) : v'.ssh i = some false := by
  rcases h.ssh_cases i with he | ⟨_, _, hn, _⟩ | ⟨_, _, he⟩
  · rwa [he]
  · simp [hi] at hn
  · exact he

theorem LifeStep.reported_cases {v v' : Life} {l : LifeLabel} (h : LifeStep v l v')
    {c : ConnId} (hs : (v'.client c).stage = .reported) :
    (v.client c).stage = .reported ∨ ∃ i, l = .close c i := by
  cases h with
  | @close d i =>
    by_cases hd : c = d
    · exact Or.inr ⟨i, by rw [hd]⟩
    · exact Or.inl (by simpa [Life.setClient_client, hd] using hs)
  | _ => exact Or.inl (by grind)

theorem LifeStep.drained_cases {v v' : Life} {l : LifeLabel} (h : LifeStep v l v')
    {c : ConnId} (hs : (v'.client c).feed = .drained) :
    (v.client c).feed = .drained ∨ ∃ i, l = .drain c i := by
  cases h with
  | @drain d i =>
    by_cases hd : c = d
    · exact Or.inr ⟨i, by rw [hd]⟩
    · exact Or.inl (by simpa [Life.setClient_client, hd] using hs)
  | _ => exact Or.inl (by grind)

theorem LifeStep.told_cases {v v' : Life} {l : LifeLabel} (h : LifeStep v l v')
    {c : ConnId} (hc : c ∈ v'.told) : c ∈ v.told ∨ l = .tell c ∧ (v.client c).feed = .drained := by
  cases h with
  | tell hd =>
    rcases hc with rfl | hc
    · exact Or.inr ⟨rfl, hd⟩
    · exact Or.inl hc
  | _ => exact Or.inl hc

theorem LifeStep.stays_ended {v v' : Life} {l : LifeLabel} (h : LifeStep v l v')
    (ok : ∀ c, (v.client c).Ok) {c : ConnId} (hc : (v.client c).feed = .ended) :
    (v'.client c).feed = .ended := by
  have hfed := (ok c).fed
  cases h <;> grind

theorem LifeStep.answered {v v' : Life} {l : LifeLabel} (h : LifeStep v l v') (ho : v.Owned)
    (hv : v.Billed) {a : Option Bytes} {i : SessionId} (hx : .refused a i ∈ v'.calls) :
    (∀ b, .opened b i ∉ v'.calls) ∧ ∀ c, (v'.client c).session = some i →
      (v'.client c).resumed = false → (v'.client c).stage ≠ .holding := by
  rcases h.call_cases hx with hx | ⟨_, _, _, he⟩ | ⟨d, j, rfl, he⟩ | ⟨_, _, _, he⟩
  · obtain ⟨hnot, hpast⟩ := hv.answered a i hx
    refine ⟨?_, ?_⟩
    · intro b hb
      rcases h.call_cases hb with hb | ⟨d, j, rfl, he⟩ | ⟨_, _, _, he⟩ | ⟨_, _, _, he⟩
      · exact hnot b hb
      · cases he
        cases h with
        | accept hs hd => exact hpast d hd ((ho.ok d).holding hs) hs
      · cases he
      · cases he
    · intro c hc rc hs
      rcases h.session_cases ho.ok hc with ⟨hc, ec, -⟩ | ⟨-, hn, -⟩ | ⟨-, -, ec⟩
      · exact h.not_holding ho.ok hc (hpast c hc (ec ▸ rc)) hs
      · exact (hv.refused a i hx).2 hn
      · simp [rc] at ec
  · cases he
  · cases he
    have ho' := h.owned ho
    cases h with
    | refuse hs hd =>
      have rd := (ho.ok d).holding hs
      refine ⟨?_, ?_⟩
      · intro b hb
        obtain ⟨e, he, re, -, hne⟩ := hv.opened b i (by simpa using hb)
        exact hne (ho.creator e d i he hd re rd ▸ hs)
      · intro c hc rc
        have hcd : c = d :=
          ho'.creator c d i hc (by simpa [Life.setClient_client] using hd) rc
            (by simpa [Life.setClient_client] using rd)
        simp [Life.setClient_client, hcd]
  · cases he

theorem LifeStep.billed {v v' : Life} {l : LifeLabel} (h : LifeStep v l v') (ho : v.Owned)
    (hv : v.Billed) : v'.Billed := by
  have ho' := h.owned ho
  refine ⟨fun a i hx => ?_, fun c i hc rc hs hi => ?_, fun a i hx => ?_,
    fun a i hx => h.answered ho hv hx, fun a i hx => ?_, fun c i hc hs => ?_,
    fun i hn hi => ?_, fun c i hc hs => ?_, fun c hc => ?_⟩
  · rcases h.call_cases hx with hx | ⟨c, j, rfl, hj⟩ | ⟨c, j, rfl, hj⟩ | ⟨c, j, rfl, hj⟩
    · obtain ⟨c, hc, rc, ac, sc⟩ := hv.opened a i hx
      obtain ⟨hc', rc', ac'⟩ := h.keeps_session ho.ok hc
      exact ⟨c, hc', rc'.trans rc, ac'.trans ac, h.not_holding ho.ok hc sc⟩
    · cases hj
      cases h with
      | accept hs hc =>
        have rc := (ho.ok c).holding hs
        exact ⟨c, by simpa [Life.setClient_client] using ⟨hc, rc⟩⟩
    · cases hj
    · cases hj
  · rcases h.session_cases ho.ok hc with ⟨hc, ec, ac⟩ | ⟨rfl, -, -⟩ | ⟨-, -, ec⟩
    · rw [ac]
      by_cases hold : (v.client c).stage = .holding
      · rcases h.leaves_holding hc hold with hs' | rfl | rfl
        · exact absurd hs' hs
        · cases h
          simp
        · cases h
          simp at hi
      · have hreg : i ∈ v.registered := by
          by_contra hn
          exact h.unregistered hn (ho.known c i hc) hi
        exact h.calls_mono (hv.granted c i hc (ec ▸ rc) hold hreg)
    · cases h
      simp [Life.setClient_client] at hs
    · simp [rc] at ec
  · rcases h.call_cases hx with hx | ⟨c, j, rfl, hj⟩ | ⟨c, j, rfl, hj⟩ | ⟨c, j, rfl, hj⟩
    · obtain ⟨hi, hn⟩ := hv.refused a i hx
      exact ⟨h.unregistered hi hn, h.ssh_ne_none hn⟩
    · cases hj
    · cases hj
      cases h with
      | refuse _ hc => exact ⟨by simp, ho.known c i hc⟩
    · cases hj
  · rcases h.call_cases hx with hx | ⟨c, j, rfl, hj⟩ | ⟨c, j, rfl, hj⟩ | ⟨c, j, rfl, hj⟩
    · obtain ⟨hn, hi⟩ := hv.closed a i hx
      refine ⟨h.ssh_ne_none hn, ?_⟩
      rcases hi with hi | ⟨c, hc, hs⟩
      · exact Or.inl (h.unregistered hi hn)
      · exact (h.leaves_reported hc hs).symm.imp_right
          (fun hs' => ⟨c, (h.keeps_session ho.ok hc).1, hs'⟩)
    · cases hj
    · cases hj
    · cases hj
      cases h with
      | close _ hc => exact ⟨ho.known c i hc, Or.inr ⟨c, by simpa [Life.setClient_client] using hc⟩⟩
  · rcases h.session_cases ho.ok hc with ⟨hold, -, -⟩ | ⟨rfl, -, -⟩ | ⟨rfl, -, -⟩
    · rcases h.reported_cases hs with hs | ⟨j, rfl⟩
      · obtain ⟨a, ha⟩ := hv.reported c i hold hs
        exact ⟨a, h.calls_mono ha⟩
      · cases h with
        | close _ hj =>
          obtain rfl := Option.some.inj (hj.symm.trans hold)
          exact ⟨(v.client c).account, by simp⟩
    · cases h
      simp [Life.setClient_client] at hs
    · cases h
      simp [Life.setClient_client] at hs
  · by_cases hreg : i ∈ v.registered
    · rcases h.removes hreg hi with ⟨c, rfl⟩ | ⟨c, rfl, hs, hc⟩
      · cases h
        exact Or.inl ⟨_, List.mem_append_right _ (List.mem_singleton.mpr rfl)⟩
      · obtain ⟨a, ha⟩ := hv.reported c i hc hs
        exact Or.inr ⟨a, h.calls_mono ha⟩
    · have hold : v.ssh i ≠ none := by
        rcases h.ssh_cases i with he | ⟨c, rfl, hnone, -⟩ | ⟨-, he, -⟩
        · rwa [← he]
        · cases h
          simp at hi
        · simp [he]
      exact (hv.removed i hold hreg).imp (fun ⟨a, ha⟩ => ⟨a, h.calls_mono ha⟩)
        (fun ⟨a, ha⟩ => ⟨a, h.calls_mono ha⟩)
  · rcases h.drained_cases hs with hd | ⟨j, rfl⟩
    · have hfeed := (ho.ok c).feed (by simp [hd])
      rcases h.session_cases ho.ok hc with ⟨hc, -, -⟩ | ⟨rfl, -, -⟩ | ⟨rfl, -, -⟩
      · exact h.stays_finished (hv.drained c i hc hd)
      · cases h with
        | create hearly _ => exact absurd ((ho.ok c).early hearly) hfeed
      · cases h with
        | attach hearly _ => exact absurd ((ho.ok c).early hearly) hfeed
    · cases h with
      | drain _ hj hfin =>
        simp only [Life.setClient_client, if_pos] at hc
        obtain rfl := Option.some.inj (hj.symm.trans hc)
        exact hfin
  · rcases h.told_cases hc with hc | ⟨rfl, hd⟩
    · obtain ⟨he, i, hi, hfin⟩ := hv.told c hc
      exact ⟨h.stays_ended ho.ok he, i, (h.keeps_session ho.ok hi).1, h.stays_finished hfin⟩
    · obtain ⟨i, hi⟩ := Option.ne_none_iff_exists'.mp ((ho.ok c).feed (by simp [hd]))
      have hfin := hv.drained c i hi hd
      cases h
      exact ⟨by simp [Life.setClient_client], i, by simpa [Life.setClient_client] using hi, hfin⟩

theorem Life.owned_init : Life.init.Owned := by
  refine ⟨fun c => ⟨?_, ?_, ?_, ?_, ?_⟩, ?_, ?_, ?_, ?_⟩ <;> simp [Life.init, Client.init]

theorem Life.billed_init : Life.init.Billed := by
  refine ⟨?_, ?_, ?_, ?_, ?_, ?_, ?_, ?_, ?_⟩ <;> simp [Life.init, Client.init]

end TtyGateway
