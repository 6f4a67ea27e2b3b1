import GeoAssets.Proofs.Catalog.Bare
import GeoAssets.Proofs.Lifecycle.Step

/-!
# Alike worlds

Two worlds are alike if they differ at most in times, in notes on failures to tell the tile service,
and in the services but for the database (`World.Alike`). Two programs agree if they leave alike
worlds alike and give the same there, up to what is not compared (`Flow.Agree`); then programs that
are made of them agree, too. A request to a service that is not compared may fail in one world only,
if its failure is caught (`Flow.Agree.attemptServices`).
-/

namespace GeoAssets

variable {α β γ δ : Type}

/-! ## Worlds -/

/-- The worlds differ at most in times, in notes on the tile service, in the services but for the
database, and in what was counted. -/
structure World.Alike (w w' : World) : Prop where
  settings : w.settings = w'.settings
  ids : w.ids = w'.ids
  store : w.store.bare = w'.store.bare
  cluster : w.cluster = w'.cluster
  database : w.services.database = w'.services.database

namespace World.Alike

variable {w w' w'' : World}

theorem refl (w : World) : w.Alike w := ⟨rfl, rfl, rfl, rfl, rfl⟩

theorem symm (h : w.Alike w') : w'.Alike w :=
  ⟨h.settings.symm, h.ids.symm, h.store.symm, h.cluster.symm, h.database.symm⟩

theorem trans (h : w.Alike w') (h' : w'.Alike w'') : w.Alike w'' where
  settings := h.settings.trans h'.settings
  ids := h.ids.trans h'.ids
  store := h.store.trans h'.store
  cluster := h.cluster.trans h'.cluster
  database := h.database.trans h'.database

theorem withStore (h : w.Alike w') {s s' : Store} (hs : s.bare = s'.bare) :
    ({ w with store := s } : World).Alike { w' with store := s' } :=
  { h with store := hs }

end World.Alike

/-! ## Results -/

/-- The results are the same error, or values that are related. -/
inductive ResultsAlike (R : α → β → Prop) : Except Error α → Except Error β → Prop where
  | ok {a : α} {b : β} (h : R a b) : ResultsAlike R (.ok a) (.ok b)
  | error (e : Error) : ResultsAlike R (.error e) (.error e)

namespace ResultsAlike

theorem refl (x : Except Error α) : ResultsAlike Eq x x := by
  cases x with
  | ok a => exact .ok rfl
  | error e => exact .error e

theorem of_map {f : α → γ} {g : β → γ} {x : Except Error α} {y : Except Error β}
    (h : f <$> x = g <$> y) : ResultsAlike (fun a b => f a = g b) x y := by
  cases x with
  | ok a =>
    cases y with
    | ok b => exact .ok (Except.ok.inj h)
    | error e => cases h
  | error e =>
    cases y with
    | ok b => cases h
    | error e' =>
      cases h
      exact .error e

end ResultsAlike

/-! ## Programs -/

namespace Flow

/-- In alike worlds the programs give alike results, and leave alike worlds. -/
def Agree (R : α → β → Prop) (f : Flow α) (g : Flow β) : Prop :=
  ∀ w w', w.Alike w' →
    ResultsAlike R (f.run w).1 (g.run w').1 ∧ (f.run w).2.Alike (g.run w').2

namespace Agree

variable {R : α → β → Prop} {Q : γ → δ → Prop}

theorem pure {a : α} {b : β} (h : R a b) : Agree R (Pure.pure a) (Pure.pure b) :=
  fun _ _ hw => ⟨.ok h, hw⟩

theorem throw (e : Error) : Agree R (MonadExcept.throw e : Flow α) (MonadExcept.throw e) :=
  fun _ _ hw => ⟨.error e, hw⟩

theorem bind {f : Flow α} {f' : Flow β} {g : α → Flow γ} {g' : β → Flow δ} (hf : Agree R f f')
    (hg : ∀ a b, R a b → Agree Q (g a) (g' b)) : Agree Q (f >>= g) (f' >>= g') := by
  intro w w' hw
  obtain ⟨hr, hw₁⟩ := hf w w' hw
  rw [run_bind, run_bind]
  rcases h : f.run w with ⟨r, w₁⟩
  rcases h' : f'.run w' with ⟨r', w₁'⟩
  rw [h, h'] at hr hw₁
  cases hr with
  | ok hab => exact hg _ _ hab w₁ w₁' hw₁
  | error e => exact ⟨.error e, hw₁⟩

/-- What is given at first may be the same. -/
theorem bindSame {f f' : Flow α} {g : α → Flow γ} {g' : α → Flow δ} (hf : Agree Eq f f')
    (hg : ∀ a, Agree Q (g a) (g' a)) : Agree Q (f >>= g) (f' >>= g') :=
  bind hf fun a b hab => by
    subst hab
    exact hg a

theorem map {f : Flow α} {f' : Flow β} {g : α → γ} {g' : β → δ} (hf : Agree R f f')
    (hg : ∀ a b, R a b → Q (g a) (g' b)) : Agree Q (g <$> f) (g' <$> f') :=
  bind hf fun a b hab => pure (hg a b hab)

theorem read {f : World → α} {g : World → β} (h : ∀ w w', w.Alike w' → R (f w) (g w')) :
    Agree R (Flow.read f) (Flow.read g) :=
  fun w w' hw => ⟨.ok (h w w' hw), hw⟩

theorem check {x : Except Error α} {y : Except Error β} (h : ResultsAlike R x y) :
    Agree R (Flow.check x) (Flow.check y) :=
  fun _ _ hw => ⟨h, hw⟩

/-- What is read may differ if what follows agrees nevertheless. -/
theorem bindRead {f : World → α} {f' : World → β} {g : α → Flow γ} {g' : β → Flow δ}
    (hg : ∀ a b, Agree Q (g a) (g' b)) : Agree Q (Flow.read f >>= g) (Flow.read f' >>= g') :=
  fun w w' hw => hg (f w) (f' w') w w' hw

theorem readSettings : Agree Eq (Flow.read (·.settings)) (Flow.read (·.settings)) :=
  read fun _ _ hw => hw.settings

/-- What is checked may be in the world. -/
theorem checkRead {f : World → Except Error α} {g : World → Except Error β}
    (h : ∀ w w', w.Alike w' → ResultsAlike R (f w) (g w')) :
    Agree R (Flow.check =<< Flow.read f) (Flow.check =<< Flow.read g) :=
  bind (read h) fun _ _ hxy => check hxy

theorem measure (m m' : Measurement) : Agree Eq (Flow.measure m) (Flow.measure m') :=
  fun _ _ hw => ⟨.ok rfl, { hw with }⟩

theorem drawAssetId : Agree Eq Flow.drawAssetId Flow.drawAssetId := by
  intro w w' hw
  have hids := hw.ids
  refine ⟨?_, { hw with ids := ?_ }⟩
  · show ResultsAlike Eq (.ok (w.ids.asset w.ids.assetsDrawn))
      (.ok (w'.ids.asset w'.ids.assetsDrawn))
    rw [hids]
    exact .ok rfl
  · show ({ w.ids with assetsDrawn := w.ids.assetsDrawn + 1 } : IdSupply) = _
    rw [hids]
    rfl

theorem attempt {f : Flow α} {g : Flow β} (h : Agree R f g) :
    Agree (ResultsAlike R) (Flow.attempt f) (Flow.attempt g) :=
  fun w w' hw => ⟨.ok (h w w' hw).1, (h w w' hw).2⟩

theorem ofWorld {f : World → α × World} {g : World → β × World}
    (h : ∀ w w', w.Alike w' → R (f w).1 (g w').1 ∧ (f w).2.Alike (g w').2) :
    Agree R (Flow.ofWorld f) (Flow.ofWorld g) :=
  fun w w' hw => ⟨.ok (h w w' hw).1, (h w w' hw).2⟩

theorem updateStore {f g : Store → Except Error Store}
    (h : ∀ s s' : Store, s.bare = s'.bare → Store.bare <$> f s = Store.bare <$> g s') :
    Agree Eq (Flow.updateStore f) (Flow.updateStore g) := by
  intro w w' hw
  have hfg := ResultsAlike.of_map (h _ _ hw.store)
  unfold Flow.updateStore
  rw [run_ofRun, run_ofRun]
  generalize f w.store = x, g w'.store = y at hfg
  cases hfg with
  | ok hs => exact ⟨.ok rfl, hw.withStore hs⟩
  | error e => exact ⟨.error e, hw⟩

theorem takeFromStore {p : α → γ} {f g : Store → Except Error (α × Store)}
    (h : ∀ s s' : Store, s.bare = s'.bare →
      Prod.map p Store.bare <$> f s = Prod.map p Store.bare <$> g s') :
    Agree (fun a b => p a = p b) (Flow.takeFromStore f) (Flow.takeFromStore g) := by
  intro w w' hw
  have hfg := ResultsAlike.of_map (h _ _ hw.store)
  unfold Flow.takeFromStore
  rw [run_ofRun, run_ofRun]
  generalize f w.store = x, g w'.store = y at hfg
  cases hfg with
  | ok hs =>
    obtain ⟨ha, hs⟩ := Prod.ext_iff.mp hs
    exact ⟨.ok ha, hw.withStore hs⟩
  | error e => exact ⟨.error e, hw⟩

end Agree

/-- The services after a request to them, which may fail. -/
def afterwards (f : Services → Except Error Services) (s : Services) : Services :=
  match f s with
  | .ok s' => s'
  | .error _ => s

/-- A request to services may fail or not, as long as it does the same to the database. -/
theorem Agree.attemptServices {f g : Services → Except Error Services}
    (h : ∀ s s', s.database = s'.database →
      (afterwards f s).database = (afterwards g s').database) :
    Agree (fun _ _ => True) (Flow.attempt (updateServices f))
      (Flow.attempt (updateServices g)) := by
  intro w w' hw
  have hdatabase := h _ _ hw.database
  have hrun : ∀ (f : Services → Except Error Services) (w : World),
      ((Flow.attempt (updateServices f)).run w).2 =
        { w with services := afterwards f w.services } := by
    intro f w
    unfold Flow.attempt updateServices afterwards
    rw [run_ofRun, run_ofRun]
    cases f w.services <;> rfl
  refine ⟨.ok trivial, ?_⟩
  rw [hrun, hrun]
  exact { hw with database := hdatabase }

end Flow

end GeoAssets
