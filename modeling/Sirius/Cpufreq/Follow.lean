import Sirius.Cpufreq.Model

/-!
# The clock follows the cores

A transition is lost if its notifiers run between the moment `krait_l2_probe` takes the rate of a core
and the moment it registers its own, or if that rate is taken while `policy->cur` is still the old one.
Nothing else loses one: what is written behind a read of the work item schedules the work again.
-/
namespace Sirius.Cpufreq
open Runs

variable {κ ρ : Type}

def Transition.Notifying (t : Transition κ) : Prop := ∃ new left, t = .notifying new left

def Probe.Updated (p : Probe κ) : Prop := p = .register ∨ p = .registered ∨ p = .returned

namespace Krait
variable (k : Krait κ ρ)

theorem foldl_target (map : List (ℕ × ℕ)) (khz target : ℕ) :
    (∃ below e above, map = below ++ e :: above ∧ e.1 ≤ khz ∧ (∀ e' ∈ above, khz < e'.1) ∧
        map.foldl (fun target e => if e.1 ≤ khz then e.2 else target) target = e.2) ∨
      (∀ e ∈ map, khz < e.1) ∧
        map.foldl (fun target e => if e.1 ≤ khz then e.2 else target) target = target := by
  induction map generalizing target with
  | nil => exact .inr ⟨by simp, rfl⟩
  | cons e map ih =>
      rw [List.foldl_cons]
      rcases ih (if e.1 ≤ khz then e.2 else target) with ⟨below, e', above, rfl, hle, habove, heq⟩ | ⟨hall, heq⟩
      · exact .inl ⟨e :: below, e', above, rfl, hle, habove, heq⟩
      · by_cases he : e.1 ≤ khz
        · exact .inl ⟨[], e, map, rfl, he, hall, by rw [heq, if_pos he]⟩
        · refine .inr ⟨?_, by rw [heq, if_neg he]⟩
          intro e' he'
          rcases List.mem_cons.1 he' with rfl | he'
          · omega
          · exact hall e' he'

/-- The loop over the table ends with the highest entry. -/
theorem highest_target (khz : ℕ) : k.Highest khz (k.target khz) := by
  rcases foldl_target k.map khz (k.map.head k.map_ne_nil).2 with ⟨below, e, above, hmap, hle, habove, heq⟩ | ⟨hall, heq⟩
  · have hsorted := k.ascending
    rw [hmap, List.pairwise_append] at hsorted
    exact .inl ⟨below, e, above, hmap, hle, fun e' he' => hsorted.2.2 e' he' e List.mem_cons_self, habove, heq⟩
  · exact .inr ⟨hall, heq⟩

theorem foldl_above {map : List (ℕ × ℕ)} {khz : ℕ} (h : ∀ e ∈ map, khz < e.1) (target : ℕ) :
    map.foldl (fun target e => if e.1 ≤ khz then e.2 else target) target = target := by
  induction map with
  | nil => rfl
  | cons e map ih =>
      have he := h e List.mem_cons_self
      rw [List.foldl_cons, if_neg (by omega)]
      exact ih fun e' he' => h e' (List.mem_cons_of_mem _ he')

theorem Highest.eq_target {khz l2 : ℕ} (h : k.Highest khz l2) : l2 = k.target khz := by
  rcases h with ⟨below, e, above, hmap, hle, _, habove, rfl⟩ | ⟨hall, rfl⟩
  · unfold target
    generalize (k.map.head k.map_ne_nil).2 = first
    rw [hmap, List.foldl_append, List.foldl_cons, if_pos hle, foldl_above habove]
  · rw [target, foldl_above hall]

theorem fastest_concat (cpus : List κ) (cpu : κ) (rate : κ → ℕ) :
    fastest (cpus ++ [cpu]) rate = max (fastest cpus rate) (rate cpu) := by
  rw [fastest, List.foldl_append]
  rfl

theorem fastest_congr {cpus : List κ} {rate rate' : κ → ℕ} (h : ∀ cpu ∈ cpus, rate cpu = rate' cpu) :
    fastest cpus rate = fastest cpus rate' := by
  have key : ∀ (l : List κ) (m : ℕ), (∀ cpu ∈ l, rate cpu = rate' cpu) →
      l.foldl (fun fastest cpu => max fastest (rate cpu)) m =
        l.foldl (fun fastest cpu => max fastest (rate' cpu)) m := by
    intro l
    induction l with
    | nil => exact fun m _ => rfl
    | cons cpu l ih =>
        intro m h
        rw [List.foldl_cons, List.foldl_cons, h cpu List.mem_cons_self]
        exact ih _ fun c hc => h c (List.mem_cons_of_mem _ hc)
  exact key cpus 0 h

/-- The rate that the loop over the table ends with fits an unsigned long in Hz. -/
def Fits (maxKhz : ℕ) : Prop := k.target maxKhz * 1000 < 2 ^ k.bitsPerLong

/-- The probe has taken the rate of the CPU. -/
def Snapshotted (s : L2 κ ρ) (cpu : κ) : Prop := ∀ left, s.probe = .snapshot left → cpu ∉ left

/-- No transition falls into the probe: one that passes before the registration leaves the cores whose
rates have been taken at these rates, and a core's rate is taken when `policy->cur` is the last completed
one. What is set fits an unsigned long. -/
def Timely (s : L2 κ ρ) : Act ρ → Prop
  | .postchange p =>
      ¬s.Registered → ∀ new, s.transition p = .changing new →
        ∀ cpu ∈ k.online, k.policyOf cpu = p → Snapshotted s cpu → s.khz cpu = new
  | .probe _ =>
      (∀ cpu left, s.probe = .snapshot (cpu :: left) → cpu ∈ k.online →
          s.policyCur (k.policyOf cpu) = s.completed (k.policyOf cpu)) ∧
        ∀ maxKhz, s.probe = .updating [] maxKhz → k.Fits maxKhz
  | .work => ∀ maxKhz, s.running = some ([], maxKhz) → k.Fits maxKhz
  | _ => True

/-- Of the cores before `left` the fastest has been found to be `maxKhz`. -/
def Reads (s : L2 κ ρ) (left : List κ) (maxKhz : ℕ) : Prop :=
  ∃ (read : List κ) (rate : κ → ℕ), k.online = read ++ left ∧ (∀ cpu ∈ read, k.Counts s cpu (rate cpu)) ∧
    maxKhz = fastest read rate

/-- The clock has the rate for the fastest core. -/
def Applied (s : L2 κ ρ) : Prop :=
  ∃ rate : κ → ℕ, (∀ cpu ∈ k.online, k.Counts s cpu (rate cpu)) ∧
    ∃ l2, k.Highest (fastest k.online rate) l2 ∧ s.curHz = 1000 * l2

variable [DecidableEq κ]

/-- The driver's rate of the CPU is that of the last completed transition, or of the one its notifier is
being called for. -/
def Recorded (s : L2 κ ρ) (cpu : κ) : Prop :=
  match s.transition (k.policyOf cpu) with
  | .notifying new left => s.khz cpu = if cpu ∈ left then s.completed (k.policyOf cpu) else new
  | _ => s.khz cpu = s.completed (k.policyOf cpu)

structure Tracks (s : L2 κ ρ) : Prop where
  recorded : ∀ cpu ∈ k.online, Snapshotted s cpu → k.Recorded s cpu
  quiet : ¬s.Registered → s.pending = false ∧ s.running = none ∧ ∀ p, ¬(s.transition p).Notifying
  left : ∀ p new left, s.transition p = .notifying new left →
    left.Nodup ∧ ∀ cpu ∈ left, k.policyOf cpu = p
  updating : ∀ left maxKhz, s.probe = .updating left maxKhz → k.Reads s left maxKhz
  running : ∀ left maxKhz, s.running = some (left, maxKhz) → s.pending = false → k.Reads s left maxKhz
  applied : s.probe.Updated → s.pending = false → s.running = none → k.Applied s

variable {k} {s s' : L2 κ ρ}

theorem Recorded.counts {cpu : κ} (h : k.Recorded s cpu) : k.Counts s cpu (s.khz cpu) := by
  unfold Recorded at h
  split at h
  case h_1 new left htransition =>
    by_cases hleft : cpu ∈ left
    · exact .inl (by rw [h, if_pos hleft])
    · exact .inr ⟨left, by rw [htransition, h, if_neg hleft]⟩
  case h_2 => exact .inl h

theorem recorded_iff_of_quiet {cpu : κ} (h : ¬(s.transition (k.policyOf cpu)).Notifying) :
    k.Recorded s cpu ↔ s.khz cpu = s.completed (k.policyOf cpu) := by
  unfold Recorded
  split
  case h_1 new left htr => exact absurd ⟨new, left, htr⟩ h
  case h_2 => exact Iff.rfl

theorem Recorded.of_eq {cpu : κ} (h : k.Recorded s cpu)
    (htransition : s'.transition (k.policyOf cpu) = s.transition (k.policyOf cpu))
    (hkhz : s'.khz cpu = s.khz cpu)
    (hcompleted : s'.completed (k.policyOf cpu) = s.completed (k.policyOf cpu)) : k.Recorded s' cpu := by
  unfold Recorded at h ⊢
  rw [htransition, hkhz, hcompleted]
  exact h

omit [DecidableEq κ] in
theorem Reads.mono {left : List κ} {maxKhz : ℕ} (h : k.Reads s left maxKhz)
    (hcounts : ∀ cpu ∈ k.online, ∀ rate, k.Counts s cpu rate → k.Counts s' cpu rate) : k.Reads s' left maxKhz := by
  obtain ⟨read, rate, honline, hread, hmax⟩ := h
  refine ⟨read, rate, honline, fun cpu hcpu => ?_, hmax⟩
  exact hcounts cpu (honline ▸ List.mem_append_left left hcpu) _ (hread cpu hcpu)

omit [DecidableEq κ] in
theorem Applied.mono (h : k.Applied s) (hhz : s'.curHz = s.curHz)
    (hcounts : ∀ cpu ∈ k.online, ∀ rate, k.Counts s cpu rate → k.Counts s' cpu rate) : k.Applied s' := by
  obtain ⟨rate, hrate, l2, hl2, hcur⟩ := h
  exact ⟨rate, fun cpu hcpu => hcounts cpu hcpu _ (hrate cpu hcpu), l2, hl2, hhz.trans hcur⟩

theorem Reads.read {cpu : κ} {left : List κ} {maxKhz : ℕ} (h : k.Reads s (cpu :: left) maxKhz)
    (hrecorded : k.Recorded s cpu) :
    k.Reads s left (if maxKhz < s.khz cpu then s.khz cpu else maxKhz) := by
  obtain ⟨read, rate, honline, hread, rfl⟩ := h
  have hnodup := k.nodup
  rw [honline, List.nodup_append] at hnodup
  have hne : ∀ c ∈ read, c ≠ cpu := fun c hc => hnodup.2.2 c hc cpu List.mem_cons_self
  have hsame : ∀ c ∈ read, Function.update rate cpu (s.khz cpu) c = rate c :=
    fun c hc => Function.update_of_ne (hne c hc) _ _
  refine ⟨read ++ [cpu], Function.update rate cpu (s.khz cpu), by rw [honline, List.append_assoc]; rfl, ?_, ?_⟩
  · intro c hc
    rcases List.mem_append.1 hc with hc | hc
    · rw [hsame c hc]
      exact hread c hc
    · obtain rfl := List.mem_singleton.1 hc
      rw [Function.update_self]
      exact hrecorded.counts
  · rw [fastest_concat, fastest_congr hsame, Function.update_self]
    split <;> omega

omit [DecidableEq κ] in
theorem update_nil (s : L2 κ ρ) (maxKhz : ℕ) :
    k.update s [] maxKhz = ({ s with curHz := k.targetHz maxKhz }, none) := by
  rw [update]
  split
  case isTrue => rfl
  case isFalse h => rw [not_not.1 h]

omit [DecidableEq κ] in
theorem Reads.finish {maxKhz : ℕ} (h : k.Reads s [] maxKhz) (hfits : k.Fits maxKhz) :
    k.Applied { s with curHz := k.targetHz maxKhz } := by
  obtain ⟨read, rate, honline, hread, rfl⟩ := h
  rw [List.append_nil] at honline
  refine ⟨rate, fun cpu hcpu => hread cpu (honline ▸ hcpu), k.target (fastest read rate), ?_, ?_⟩
  · rw [honline]
    exact k.highest_target _
  · rw [targetHz, Nat.mod_eq_of_lt hfits, Nat.mul_comm]

theorem boot_tracks (cur : ρ → ℕ) : k.Tracks (k.boot cur) where
  recorded cpu hcpu hsnap := absurd (k.online_possible cpu hcpu) (hsnap _ rfl)
  quiet _ := ⟨rfl, rfl, fun p h => by obtain ⟨new, left, h⟩ := h; cases h⟩
  left p new left h := by cases h
  updating left maxKhz h := by cases h
  running left maxKhz h := by cases h
  applied h := by rcases h with h | h | h <;> cases h

/-- Where every rate that a core has counted with still counts, what was read and what was set stays right. -/
theorem Tracks.of_counts (h : k.Tracks s) (hprobe : s'.probe = s.probe) (hpending : s'.pending = s.pending)
    (hrunning : s'.running = s.running) (hhz : s'.curHz = s.curHz)
    (hcounts : ∀ cpu ∈ k.online, ∀ rate, k.Counts s cpu rate → k.Counts s' cpu rate)
    (hrecorded : ∀ cpu ∈ k.online, Snapshotted s cpu → k.Recorded s' cpu)
    (hquiet : ¬s.Registered → ∀ p, ¬(s'.transition p).Notifying)
    (hleft : ∀ p new left, s'.transition p = .notifying new left →
      left.Nodup ∧ ∀ cpu ∈ left, k.policyOf cpu = p) : k.Tracks s' where
  recorded cpu hcpu hsnap := hrecorded cpu hcpu fun left hs => hsnap left (hprobe.trans hs)
  quiet hunreg := by
    have hunreg : ¬s.Registered := by rwa [L2.Registered, hprobe] at hunreg
    obtain ⟨hno, hnone, -⟩ := h.quiet hunreg
    exact ⟨hpending.trans hno, hrunning.trans hnone, hquiet hunreg⟩
  left := hleft
  updating left maxKhz hs := (h.updating left maxKhz (hprobe ▸ hs)).mono hcounts
  running left maxKhz hs hno := (h.running left maxKhz (hrunning ▸ hs) (hpending ▸ hno)).mono hcounts
  applied hs hno hnone := (h.applied (hprobe ▸ hs) (hpending ▸ hno) (hrunning ▸ hnone)).mono hhz hcounts

variable [DecidableEq ρ]

omit [DecidableEq κ] in
theorem notifying_update {transition : ρ → Transition κ} {p q : ρ} {t : Transition κ} (ht : ¬t.Notifying)
    (hq : (Function.update transition p t q).Notifying) : (transition q).Notifying := by
  by_cases hqp : q = p
  · subst hqp
    rw [Function.update_self] at hq
    exact absurd hq ht
  · rwa [Function.update_of_ne hqp] at hq

theorem Tracks.left_update (h : k.Tracks s) {p : ρ} {t : Transition κ}
    (ht : ∀ new left, t = .notifying new left → left.Nodup ∧ ∀ cpu ∈ left, k.policyOf cpu = p) :
    ∀ q new left, Function.update s.transition p t q = .notifying new left →
      left.Nodup ∧ ∀ cpu ∈ left, k.policyOf cpu = q := by
  intro q new left hq
  by_cases hqp : q = p
  · subst hqp
    rw [Function.update_self] at hq
    exact ht new left hq
  · rw [Function.update_of_ne hqp] at hq
    exact h.left q new left hq

theorem Tracks.settle (h : k.Tracks s) {p : ρ} {t : Transition κ} (hs : ¬(s.transition p).Notifying)
    (ht : ¬t.Notifying) (cur : ρ → ℕ) :
    k.Tracks { s with policyCur := cur, transition := Function.update s.transition p t } := by
  have hcounts : ∀ cpu ∈ k.online, ∀ rate, k.Counts s cpu rate →
      k.Counts { s with policyCur := cur, transition := Function.update s.transition p t } cpu rate := by
    intro cpu hcpu rate hrate
    refine hrate.imp id fun ⟨left, hleft⟩ => ⟨left, ?_⟩
    have hne : k.policyOf cpu ≠ p := fun hp => hs ⟨rate, left, hp ▸ hleft⟩
    exact (Function.update_of_ne hne _ _).trans hleft
  refine h.of_counts rfl rfl rfl rfl hcounts ?_ ?_ (h.left_update fun new left htr => absurd ⟨new, left, htr⟩ ht)
  · intro cpu hcpu hsnap
    have hrec := h.recorded cpu hcpu hsnap
    by_cases hp : k.policyOf cpu = p
    · have hquiet : ¬(s.transition (k.policyOf cpu)).Notifying := hp ▸ hs
      rw [recorded_iff_of_quiet hquiet] at hrec
      exact (recorded_iff_of_quiet fun hn => hquiet (notifying_update ht hn)).2 hrec
    · exact hrec.of_eq (Function.update_of_ne hp _ _) rfl rfl
  · exact fun hreg q hq => (h.quiet hreg).2.2 q (notifying_update ht hq)

theorem Tracks.pass (h : k.Tracks s) {p : ρ} {new : ℕ} (hreg : ¬s.Registered)
    (htimely : ∀ cpu ∈ k.online, k.policyOf cpu = p → Snapshotted s cpu → s.khz cpu = new) :
    k.Tracks { s with
      transition := Function.update s.transition p (.notified new)
      completed := Function.update s.completed p new } := by
  obtain ⟨hpending, hrunning, hnone⟩ := h.quiet hreg
  -- a rate that has been taken is the last completed one, which is `new` for the cores of `p`
  have hold : ∀ cpu ∈ k.online, Snapshotted s cpu → s.khz cpu = s.completed (k.policyOf cpu) := by
    intro cpu hcpu hsnap
    exact (recorded_iff_of_quiet (hnone _)).1 (h.recorded cpu hcpu hsnap)
  have hcompleted : ∀ cpu ∈ k.online, Snapshotted s cpu →
      Function.update s.completed p new (k.policyOf cpu) = s.completed (k.policyOf cpu) := by
    intro cpu hcpu hsnap
    by_cases hp' : k.policyOf cpu = p
    · rw [hp', Function.update_self, ← htimely cpu hcpu hp' hsnap, ← hp']
      exact hold cpu hcpu hsnap
    · exact Function.update_of_ne hp' _ _
  have hquiet : ∀ q, ¬(Function.update s.transition p (.notified new) q).Notifying :=
    fun q hq => hnone q (notifying_update (by rintro ⟨_, _, ⟨⟩⟩) hq)
  have hcounts : (∀ cpu ∈ k.online, Snapshotted s cpu) → ∀ cpu ∈ k.online, ∀ rate, k.Counts s cpu rate →
      k.Counts { s with
        transition := Function.update s.transition p (.notified new)
        completed := Function.update s.completed p new } cpu rate := by
    rintro hsnap cpu hcpu rate (hrate | ⟨left, hleft⟩)
    · exact .inl (hrate.trans (hcompleted cpu hcpu (hsnap cpu hcpu)).symm)
    · exact absurd ⟨rate, left, hleft⟩ (hnone _)
  refine ⟨?_, fun _ => ⟨hpending, hrunning, hquiet⟩, ?_, ?_, ?_, ?_⟩
  · intro cpu hcpu hsnap
    exact (recorded_iff_of_quiet (hquiet _)).2 ((hold cpu hcpu hsnap).trans (hcompleted cpu hcpu hsnap).symm)
  · intro q new left hq
    exact absurd ⟨new, left, hq⟩ (hquiet q)
  · intro left maxKhz hprobe
    refine (h.updating left maxKhz hprobe).mono (hcounts fun cpu _ left' hprobe' => ?_)
    rw [show s.probe = .updating left maxKhz from hprobe] at hprobe'
    cases hprobe'
  · intro left maxKhz hrun
    rw [show s.running = none from hrunning] at hrun
    cases hrun
  · intro hupd hpending hrunning
    refine (h.applied hupd hpending hrunning).mono rfl (hcounts fun cpu _ left hprobe => ?_)
    rcases hupd with hupd | hupd | hupd <;>
      rw [show s.probe = _ from hupd] at hprobe <;> cases hprobe

theorem Tracks.notify (h : k.Tracks s) {p : ρ} {new : ℕ} (hp : s.transition p = .changing new)
    (hreg : s.Registered) :
    k.Tracks { s with transition := Function.update s.transition p (.notifying new (k.cpus p)) } := by
  have hcounts : ∀ cpu ∈ k.online, ∀ rate, k.Counts s cpu rate →
      k.Counts { s with transition := Function.update s.transition p (.notifying new (k.cpus p)) } cpu rate := by
    intro cpu hcpu rate hrate
    refine hrate.imp id fun ⟨left, hleft⟩ => ⟨left, ?_⟩
    have hne : k.policyOf cpu ≠ p := by
      rintro rfl
      rw [hp] at hleft
      cases hleft
    exact (Function.update_of_ne hne _ _).trans hleft
  refine h.of_counts rfl rfl rfl rfl hcounts ?_ (fun hunreg => absurd hreg hunreg) (h.left_update ?_)
  · intro cpu hcpu hsnap
    have hrec := h.recorded cpu hcpu hsnap
    by_cases hpol : k.policyOf cpu = p
    · have hmem : cpu ∈ k.cpus p := List.mem_filter.2 ⟨hcpu, by simpa using hpol⟩
      unfold Recorded at hrec ⊢
      rw [hpol, hp] at hrec
      simp only [hpol, Function.update_self, hmem, if_true]
      exact hrec
    · exact hrec.of_eq (Function.update_of_ne hpol _ _) rfl rfl
  · rintro new' left ⟨⟩
    exact ⟨k.nodup.filter _, fun cpu hcpu => by simpa using List.of_mem_filter hcpu⟩

omit [DecidableEq ρ] in
theorem Tracks.registered_of_notifying (h : k.Tracks s) {p : ρ} (hp : (s.transition p).Notifying) :
    s.Registered := by
  by_contra hreg
  exact (h.quiet hreg).2.2 p hp

theorem Tracks.write (h : k.Tracks s) {p : ρ} {new : ℕ} {c : κ} {left : List κ}
    (hp : s.transition p = .notifying new (c :: left)) :
    k.Tracks { s with
      khz := Function.update s.khz c new
      transition := Function.update s.transition p (.notifying new left) } := by
  have hreg := h.registered_of_notifying ⟨new, _, hp⟩
  obtain ⟨hnodup, hpol⟩ := h.left p new _ hp
  have hcp : k.policyOf c = p := hpol c List.mem_cons_self
  have hcounts : ∀ cpu ∈ k.online, ∀ rate, k.Counts s cpu rate →
      k.Counts { s with
        khz := Function.update s.khz c new
        transition := Function.update s.transition p (.notifying new left) } cpu rate := by
    intro cpu hcpu rate hrate
    refine hrate.imp id fun ⟨left', hleft'⟩ => ?_
    by_cases hp' : k.policyOf cpu = p
    · rw [hp', hp] at hleft'
      cases hleft'
      exact ⟨left, by simp only [hp', Function.update_self]⟩
    · exact ⟨left', (Function.update_of_ne hp' _ _).trans hleft'⟩
  refine h.of_counts rfl rfl rfl rfl hcounts ?_ (fun hunreg => absurd hreg hunreg) (h.left_update ?_)
  · intro cpu hcpu hsnap
    have hrec := h.recorded cpu hcpu hsnap
    by_cases hp' : k.policyOf cpu = p
    · unfold Recorded at hrec ⊢
      rw [hp', hp] at hrec
      simp only [hp', Function.update_self]
      by_cases hc : cpu = c
      · subst hc
        rw [Function.update_self, if_neg (List.nodup_cons.1 hnodup).1]
      · simp only [List.mem_cons, hc, false_or] at hrec
        rw [Function.update_of_ne hc]
        exact hrec
    · have hc : cpu ≠ c := by
        rintro rfl
        exact hp' hcp
      exact hrec.of_eq (Function.update_of_ne hp' _ _) (Function.update_of_ne hc _ _) rfl
  · rintro new' left' ⟨⟩
    exact ⟨(List.nodup_cons.1 hnodup).2, fun cpu hcpu => hpol cpu (List.mem_cons_of_mem _ hcpu)⟩

/-- The last one is written, and the work is scheduled: what the work has read before may be old. -/
theorem Tracks.schedule (h : k.Tracks s) {p : ρ} {new : ℕ} (hp : s.transition p = .notifying new []) :
    k.Tracks { s with
      pending := true
      transition := Function.update s.transition p (.notified new)
      completed := Function.update s.completed p new } := by
  have hreg := h.registered_of_notifying ⟨new, _, hp⟩
  refine ⟨?_, fun hunreg => absurd hreg hunreg, h.left_update nofun, ?_, ?_, ?_⟩
  · intro cpu hcpu hsnap
    have hrec := h.recorded cpu hcpu hsnap
    by_cases hp' : k.policyOf cpu = p
    · unfold Recorded at hrec ⊢
      rw [hp', hp] at hrec
      simp only [hp', Function.update_self]
      simpa using hrec
    · exact hrec.of_eq (Function.update_of_ne hp' _ _) rfl (Function.update_of_ne hp' _ _)
  · intro left maxKhz hprobe
    rcases hreg with hreg | hreg <;>
      rw [show s.probe = .updating left maxKhz from hprobe] at hreg <;> cases hreg
  · intro left maxKhz hrun hpending
    cases hpending
  · intro hupd hpending
    cases hpending

omit [DecidableEq ρ] in
/-- The probe goes on to `probe'`, with the rates and the clock as they are. -/
theorem Tracks.advance (h : k.Tracks s) (probe' : Probe κ)
    (hsnap : ∀ cpu ∈ k.online, Snapshotted { s with probe := probe' } cpu → Snapshotted s cpu)
    (hreg : s.Registered → L2.Registered { s with probe := probe' })
    (hupdating : ∀ left maxKhz, probe' = .updating left maxKhz → k.Reads s left maxKhz)
    (happlied : probe'.Updated → s.pending = false → s.running = none → k.Applied s) :
    k.Tracks { s with probe := probe' } where
  recorded cpu hcpu hs := h.recorded cpu hcpu (hsnap cpu hcpu hs)
  quiet hunreg := h.quiet fun hr => hunreg (hreg hr)
  left := h.left
  updating := hupdating
  running := h.running
  applied := happlied

omit [DecidableEq κ] [DecidableEq ρ] in
theorem snapshotted_of_eq {probe' : Probe κ} (hprobe : s.probe = probe') (hne : ∀ left, probe' ≠ .snapshot left)
    (cpu : κ) : Snapshotted s cpu :=
  fun left hleft => absurd (hprobe.symm.trans hleft) (hne left)

omit [DecidableEq κ] [DecidableEq ρ] in
theorem not_registered_of_eq {probe' : Probe κ} (hprobe : s.probe = probe') (hne : probe' ≠ .registered)
    (hne' : probe' ≠ .returned) : ¬s.Registered := by
  rintro (hreg | hreg)
  · exact hne (hprobe.symm.trans hreg)
  · exact hne' (hprobe.symm.trans hreg)

omit [DecidableEq ρ] in
/-- Behind the snapshot the next rate of a loop over the CPUs is a recorded one. -/
theorem Tracks.reads_next (h : k.Tracks s) (hsnap : ∀ cpu, Snapshotted s cpu) {c : κ} {left : List κ} {maxKhz : ℕ}
    (hreads : k.Reads s (c :: left) maxKhz) : k.Reads s left (if maxKhz < s.khz c then s.khz c else maxKhz) := by
  have hc : c ∈ k.online := by
    obtain ⟨read, rate, honline, -⟩ := hreads
    exact honline ▸ List.mem_append_right read List.mem_cons_self
  exact hreads.read (h.recorded c hc (hsnap c))

omit [DecidableEq κ] [DecidableEq ρ] in
theorem Reads.start (s : L2 κ ρ) : k.Reads s k.online 0 :=
  ⟨[], fun _ => 0, rfl, by simp, rfl⟩

omit [DecidableEq ρ] in
theorem Tracks.snapshot (h : k.Tracks s) {c : κ} {left : List κ} (hprobe : s.probe = .snapshot (c :: left))
    (htimely : c ∈ k.online → s.policyCur (k.policyOf c) = s.completed (k.policyOf c)) :
    k.Tracks { s with khz := Function.update s.khz c (k.quickGet s c), probe := .snapshot left } := by
  obtain ⟨hpending, hrunning, hnone⟩ := h.quiet (not_registered_of_eq hprobe nofun nofun)
  refine ⟨?_, fun _ => ⟨hpending, hrunning, hnone⟩, h.left, ?_, ?_, ?_⟩
  · intro cpu hcpu hsnap
    by_cases hc : cpu = c
    · subst hc
      refine Iff.mpr (recorded_iff_of_quiet ?_) ((Function.update_self _ _ _).trans ?_)
      · exact hnone _
      rw [quickGet, if_pos hcpu]
      exact htimely hcpu
    · have hsnap' : Snapshotted s cpu := by
        intro left' hleft'
        rw [hprobe] at hleft'
        cases hleft'
        exact fun hmem => hsnap left rfl (List.mem_of_ne_of_mem hc hmem)
      exact (h.recorded cpu hcpu hsnap').of_eq rfl (Function.update_of_ne hc _ _) rfl
  · intro left' maxKhz hprobe'
    cases hprobe'
  · intro left' maxKhz hrun
    rw [show s.running = none from hrunning] at hrun
    cases hrun
  · rintro (hupd | hupd | hupd) <;> cases hupd

omit [DecidableEq ρ] in
theorem Tracks.probeRead (h : k.Tracks s) {c : κ} {left : List κ} {maxKhz : ℕ}
    (hprobe : s.probe = .updating (c :: left) maxKhz) :
    k.Tracks { s with probe := .updating left (if maxKhz < s.khz c then s.khz c else maxKhz) } := by
  have hsnap := snapshotted_of_eq hprobe nofun
  refine h.advance _ (fun cpu _ _ => hsnap cpu) ?_ ?_ ?_
  · exact fun hreg => absurd hreg (not_registered_of_eq hprobe nofun nofun)
  · rintro left' maxKhz' ⟨⟩
    exact h.reads_next hsnap (h.updating _ _ hprobe)
  · rintro (hupd | hupd | hupd) <;> cases hupd

omit [DecidableEq ρ] in
/-- The probe has read the last rate and sets the clock. -/
theorem Tracks.probeSet (h : k.Tracks s) {maxKhz : ℕ} (hprobe : s.probe = .updating [] maxKhz)
    (hfits : k.Fits maxKhz) : k.Tracks { s with curHz := k.targetHz maxKhz, probe := .register } := by
  have hsnap := snapshotted_of_eq hprobe nofun
  have happlied := (h.updating _ _ hprobe).finish hfits
  obtain ⟨hpending, hrunning, hnone⟩ := h.quiet (not_registered_of_eq hprobe nofun nofun)
  refine ⟨fun cpu hcpu _ => h.recorded cpu hcpu (hsnap cpu), fun _ => ⟨hpending, hrunning, hnone⟩, h.left,
    ?_, ?_, fun _ _ _ => happlied⟩
  · rintro left' maxKhz' ⟨⟩
  · intro left' maxKhz' hrun
    rw [show s.running = none from hrunning] at hrun
    cases hrun

omit [DecidableEq ρ] in
theorem Tracks.probeStep (h : k.Tracks s) (registers : Bool)
    (hsnapshot : ∀ cpu left, s.probe = .snapshot (cpu :: left) → cpu ∈ k.online →
      s.policyCur (k.policyOf cpu) = s.completed (k.policyOf cpu))
    (hfits : ∀ maxKhz, s.probe = .updating [] maxKhz → k.Fits maxKhz) :
    k.Tracks (k.probeStep registers s) := by
  unfold Krait.probeStep
  split
  case h_1 c left hprobe => exact h.snapshot hprobe (hsnapshot c left hprobe)
  case h_2 hprobe =>
    refine h.advance _ ?_ ?_ ?_ ?_
    · intro cpu hcpu _ left hleft
      rw [hprobe] at hleft
      cases hleft
      exact List.not_mem_nil
    · exact fun hreg => absurd hreg (not_registered_of_eq hprobe nofun nofun)
    · rintro left maxKhz ⟨⟩
      exact Reads.start s
    · rintro (hupd | hupd | hupd) <;> cases hupd
  case h_3 left maxKhz hprobe =>
    cases left with
    | cons c left =>
        rw [update]
        exact h.probeRead hprobe
    | nil =>
        rw [update_nil]
        exact h.probeSet hprobe (hfits maxKhz hprobe)
  case h_4 hprobe =>
    have hsnap := snapshotted_of_eq hprobe nofun
    refine h.advance _ (fun cpu _ _ => hsnap cpu) ?_ ?_ fun _ => h.applied (.inl hprobe)
    · exact fun hreg => absurd hreg (not_registered_of_eq hprobe nofun nofun)
    · intro left maxKhz hupd
      cases registers <;> cases hupd
  case h_5 hprobe =>
    have hsnap := snapshotted_of_eq hprobe nofun
    refine h.advance _ (fun cpu _ _ => hsnap cpu) (fun _ => .inr rfl) ?_ fun _ => h.applied (.inr (.inl hprobe))
    rintro left maxKhz ⟨⟩
  case h_6 => exact h
  case h_7 => exact h

omit [DecidableEq ρ] in
theorem Tracks.registered_of_running (h : k.Tracks s) {left : List κ} {maxKhz : ℕ}
    (hrun : s.running = some (left, maxKhz)) : s.Registered := by
  by_contra hreg
  rw [(h.quiet hreg).2.1] at hrun
  cases hrun

omit [DecidableEq ρ] in
theorem Tracks.workStep (h : k.Tracks s) (hfits : ∀ maxKhz, s.running = some ([], maxKhz) → k.Fits maxKhz) :
    k.Tracks (k.workStep s) := by
  unfold Krait.workStep
  split
  case h_1 left maxKhz hrun =>
    have hreg := h.registered_of_running hrun
    have hsnap : ∀ cpu, Snapshotted s cpu := by
      rcases hreg with hreg | hreg
      · exact snapshotted_of_eq hreg nofun
      · exact snapshotted_of_eq hreg nofun
    cases left with
    | cons c left =>
        rw [update]
        refine ⟨h.recorded, fun hunreg => absurd hreg hunreg, h.left, h.updating, ?_, ?_⟩
        · rintro left' maxKhz' ⟨⟩ hpending
          exact h.reads_next hsnap (h.running _ _ hrun hpending)
        · intro hupd hpending hrunning
          cases hrunning
    | nil =>
        rw [update_nil]
        refine ⟨h.recorded, fun hunreg => absurd hreg hunreg, h.left, h.updating, ?_, ?_⟩
        · intro left' maxKhz' hrunning
          cases hrunning
        · exact fun _ hpending _ => (h.running _ _ hrun hpending).finish (hfits maxKhz hrun)
  case h_2 => exact h

theorem Tracks.step (h : k.Tracks s) {a : Act ρ} (htimely : k.Timely s a) : k.Tracks (k.step s a) := by
  cases a with
  | begin p new =>
      rw [Krait.step]
      split
      case h_1 hp => exact h.settle (by rw [hp]; rintro ⟨_, _, ⟨⟩⟩) (by rintro ⟨_, _, ⟨⟩⟩) s.policyCur
      case h_2 => exact h
  | postchange p =>
      rw [Krait.step, Krait.postchange]
      split
      case h_1 new hp =>
        split
        case isTrue hreg => exact h.notify hp hreg
        case isFalse hreg => exact h.pass hreg (htimely hreg new hp)
      case h_2 => exact h
  | notifier p =>
      rw [Krait.step, Krait.notifierStep]
      split
      case h_1 new c left hp => exact h.write hp
      case h_2 new hp => exact h.schedule hp
      case h_3 => exact h
  | setCur p =>
      rw [Krait.step]
      split
      case h_1 new hp => exact h.settle (by rw [hp]; rintro ⟨_, _, ⟨⟩⟩) (by rintro ⟨_, _, ⟨⟩⟩) _
      case h_2 => exact h
  | probe registers => exact h.probeStep registers htimely.1 htimely.2
  | startWork =>
      rw [Krait.step]
      split
      case isTrue hwork =>
        refine ⟨h.recorded, ?_, h.left, h.updating, ?_, ?_⟩
        · intro hunreg
          rw [(h.quiet hunreg).1] at hwork
          exact absurd hwork.1 Bool.false_ne_true
        · rintro left maxKhz ⟨⟩ _
          exact Reads.start s
        · intro _ _ hrunning
          cases hrunning
      case isFalse => exact h
  | work => exact h.workStep htimely

/-- In every run in which no transition falls into the probe, the clock follows the fastest core. -/
theorem follows_of_timely (k : Krait κ ρ) (cur : ρ → ℕ) (as : List (Act ρ))
    (h : Always k.step k.Timely (k.boot cur) as) : k.Follows (run k.step (k.boot cur) as) := by
  have htracks : k.Tracks (run k.step (k.boot cur) as) :=
    run_invariant (I := k.Tracks) (C := k.Timely) (fun _ _ hs htimely => hs.step htimely) (boot_tracks cur) h
  intro hprobe hpending hrunning
  exact htracks.applied (.inr (.inr hprobe)) hpending hrunning

/-- One core at 300 MHz, and the first entries of the phone's table. -/
def oneCore : Krait Unit Unit where
  possible := [()]
  online := [()]
  policyOf := id
  map := [(300000, 300000), (960000, 729600)]
  bitsPerLong := 32
  online_possible := by decide
  nodup := by decide
  map_ne_nil := by decide
  ascending := by decide

/-- The core goes to 960 MHz while the probe runs, but its notifiers run behind the registration. -/
def followedTransition : List (Act Unit) :=
  [.begin () 960000, .probe true, .probe true, .probe true, .probe true, .probe true, .probe true,
    .postchange (), .notifier (), .notifier (), .startWork, .work, .work, .setCur ()]

theorem followedTransition_follows :
    oneCore.Follows (run oneCore.step (oneCore.boot fun _ => 300000) followedTransition) := by
  refine follows_of_timely oneCore (fun _ => 300000) followedTransition ?_
  simp [Always, followedTransition, Timely, Krait.step, Krait.probeStep, boot, update, Fits, oneCore, target,
    targetHz, quickGet, Krait.workStep, postchange, notifierStep, Krait.cpus, L2.Registered]

/-- The core goes to 960 MHz between the update of the probe and the registration. -/
def lostTransition : List (Act Unit) :=
  [.probe true, .probe true, .probe true, .probe true, .begin () 960000, .postchange (), .setCur (),
    .probe true, .probe true]

theorem lostTransition_not_follows :
    ¬oneCore.Follows (run oneCore.step (oneCore.boot fun _ => 300000) lostTransition) := by
  intro h
  obtain ⟨rate, hrate, l2, hl2, hcur⟩ := h rfl rfl rfl
  have hfast : rate () = 960000 := by
    rcases hrate () (by decide) with hrate | ⟨left, hleft⟩
    · exact hrate
    · cases hleft
  have hl2 := hl2.eq_target
  rw [show fastest oneCore.online rate = 960000 from by rw [← hfast]; exact Nat.zero_max _] at hl2
  subst hl2
  revert hcur
  decide

end Krait
end Sirius.Cpufreq
