import Mathlib.Data.Int.Order.Basic

/-!
# Channel maps of the SLIMbus back ends

`msm8974_be_hw_params` in msm8974-sndcard.c asks each codec of the link for its channel map and gives it to the CPU
DAI. One variable has the result of whatever was called last.
-/
namespace Sirius.Sndcard

@[simp] def ENOTSUPP : ℤ := 524

def SLIMBUS_0_RX : ℕ := 2
def SLIMBUS_6_TX : ℕ := 15

/-- `substream->stream` -/
inductive Stream
  | playback
  | capture
  deriving DecidableEq, Repr

/-- `tx_ch_cnt`, `tx_ch`, `rx_ch_cnt` and `rx_ch` -/
structure ChannelBufs where
  txCnt : ℕ
  tx : ℕ → ℕ
  rxCnt : ℕ
  rx : ℕ → ℕ

/-- What `snd_soc_dai_set_channel_map` is given. -/
structure DaiMap where
  tx : List ℕ
  rx : List ℕ
  deriving DecidableEq, Repr

def ChannelBufs.daiMap (bufs : ChannelBufs) : Stream → DaiMap
  | .playback => ⟨[], (List.range bufs.rxCnt).map bufs.rx⟩
  | .capture => ⟨(List.range bufs.txCnt).map bufs.tx, []⟩

/-- A codec DAI: what `snd_soc_dai_get_channel_map` returns, and what it leaves in the arrays. -/
abbrev CodecDai := ChannelBufs → ℤ × ChannelBufs

/-- The locals of `msm8974_be_hw_params`, how often the map was set, and the map the CPU DAI has. -/
structure BeState where
  bufs : ChannelBufs
  sets : ℕ
  cpu : Option DaiMap
  ret : ℤ

section
variable (stream : Stream) (setChannelMap : ℕ → DaiMap → ℤ)

/-- The loop over the codec DAIs; `setChannelMap` has the result of each call for the CPU DAI. -/
def codecDais : List CodecDai → BeState → BeState
  | [], s => s
  | codec :: codecs, s =>
      let (ret, bufs) := codec s.bufs
      let s := { s with bufs, ret }
      if ret = -ENOTSUPP then codecDais codecs s
      else if ret ≠ 0 then s
      else
        let map := bufs.daiMap stream
        let ret := setChannelMap s.sets map
        let s := { s with sets := s.sets + 1, cpu := if ret = 0 then some map else s.cpu, ret }
        if ret ≠ 0 then s else codecDais codecs s

/-- The arrays are not initialised, their counts are. -/
def msm8974BeHwParams (id : ℕ) (codecs : List CodecDai) (tx rx : ℕ → ℕ) (cpu : Option DaiMap) : BeState :=
  let s : BeState := ⟨⟨0, tx, 0, rx⟩, 0, cpu, 0⟩
  if SLIMBUS_0_RX ≤ id ∧ id ≤ SLIMBUS_6_TX then codecDais stream setChannelMap codecs s else s

end

/-- The answers of the codecs, each asked with what the ones before it left. -/
def answers : List CodecDai → ChannelBufs → List (ℤ × ChannelBufs)
  | [], _ => []
  | codec :: codecs, bufs => codec bufs :: answers codecs (codec bufs).2

section
variable (stream : Stream) (setChannelMap : ℕ → DaiMap → ℤ)

/-- The maps of the codecs that have one. -/
def maps (codecs : List CodecDai) (bufs : ChannelBufs) : List DaiMap :=
  ((answers codecs bufs).filter (·.1 = 0)).map (·.2.daiMap stream)

/-- No codec fails but for want of a map, and the CPU DAI takes every map from the `n`-th on. -/
structure Succeeds (n : ℕ) (codecs : List CodecDai) (bufs : ChannelBufs) : Prop where
  gets : ∀ a ∈ answers codecs bufs, a.1 = 0 ∨ a.1 = -ENOTSUPP
  sets : ∀ k map, (maps stream codecs bufs)[k]? = some map → setChannelMap (n + k) map = 0

/-- Zero exactly where nothing failed, and then the CPU DAI has the last map there is. -/
structure Maps (codecs : List CodecDai) (tx rx : ℕ → ℕ) (cpu : Option DaiMap) (s : BeState) : Prop where
  ret : s.ret = 0 ↔ Succeeds stream setChannelMap 0 codecs ⟨0, tx, 0, rx⟩
  cpu : s.ret = 0 → s.cpu = ((maps stream codecs ⟨0, tx, 0, rx⟩).getLast?).or cpu

end

def LastHasMap (codecs : List CodecDai) (bufs : ChannelBufs) : Prop :=
  ∀ a, (answers codecs bufs).getLast? = some a → a.1 ≠ -ENOTSUPP

section
variable {stream : Stream} {setChannelMap : ℕ → DaiMap → ℤ} {codec : CodecDai} {codecs : List CodecDai} {s : BeState}

theorem codecDais_without (h : (codec s.bufs).1 = -ENOTSUPP) :
    codecDais stream setChannelMap (codec :: codecs) s =
      codecDais stream setChannelMap codecs { s with bufs := (codec s.bufs).2, ret := -ENOTSUPP } := by
  rw [codecDais]
  simp only [h, if_true]

theorem ret_of_fails (h : (codec s.bufs).1 ≠ -ENOTSUPP) (h0 : (codec s.bufs).1 ≠ 0) :
    (codecDais stream setChannelMap (codec :: codecs) s).ret = (codec s.bufs).1 := by
  rw [codecDais]
  simp only [if_neg h, if_pos h0]

theorem codecDais_map (h : (codec s.bufs).1 = 0)
    (hset : setChannelMap s.sets ((codec s.bufs).2.daiMap stream) = 0) :
    codecDais stream setChannelMap (codec :: codecs) s =
      codecDais stream setChannelMap codecs
        ⟨(codec s.bufs).2, s.sets + 1, some ((codec s.bufs).2.daiMap stream), 0⟩ := by
  have hmap : (0 : ℤ) ≠ -ENOTSUPP := by decide
  rw [codecDais]
  simp only [h, if_neg hmap, hset, ne_eq, not_true, if_false, if_true]

theorem ret_of_refused (h : (codec s.bufs).1 = 0)
    (hset : setChannelMap s.sets ((codec s.bufs).2.daiMap stream) ≠ 0) :
    (codecDais stream setChannelMap (codec :: codecs) s).ret =
      setChannelMap s.sets ((codec s.bufs).2.daiMap stream) := by
  have hmap : (0 : ℤ) ≠ -ENOTSUPP := by decide
  rw [codecDais]
  simp only [h, if_neg hmap, ne_eq, not_true, if_false, hset, not_false_iff, if_true]

end

section
variable {stream : Stream} {setChannelMap : ℕ → DaiMap → ℤ} {n : ℕ} {codec : CodecDai} {codecs : List CodecDai}
  {bufs : ChannelBufs}

theorem maps_without (h : (codec bufs).1 = -ENOTSUPP) :
    maps stream (codec :: codecs) bufs = maps stream codecs (codec bufs).2 := by
  have hret : ¬(codec bufs).1 = 0 := by
    rw [h]
    decide
  rw [maps, answers, List.filter_cons_of_neg (by simpa using hret)]
  rfl

theorem maps_cons (h : (codec bufs).1 = 0) : maps stream (codec :: codecs) bufs =
    (codec bufs).2.daiMap stream :: maps stream codecs (codec bufs).2 := by
  rw [maps, answers, List.filter_cons_of_pos (by simpa using h)]
  rfl

theorem succeeds_without (h : (codec bufs).1 = -ENOTSUPP) : Succeeds stream setChannelMap n (codec :: codecs) bufs ↔
    Succeeds stream setChannelMap n codecs (codec bufs).2 := by
  constructor
  · intro hs
    refine ⟨fun a ha => hs.gets a (List.mem_cons_of_mem _ ha), fun k map hk => hs.sets k map ?_⟩
    rwa [maps_without h]
  · intro hs
    refine ⟨fun a ha => ?_, fun k map hk => hs.sets k map ?_⟩
    · rcases List.mem_cons.mp ha with rfl | ha
      · exact Or.inr h
      · exact hs.gets a ha
    · rwa [maps_without h] at hk

theorem succeeds_map (h : (codec bufs).1 = 0) : Succeeds stream setChannelMap n (codec :: codecs) bufs ↔
    setChannelMap n ((codec bufs).2.daiMap stream) = 0 ∧
      Succeeds stream setChannelMap (n + 1) codecs (codec bufs).2 := by
  constructor
  · intro hs
    have hsets := hs.sets
    rw [maps_cons h] at hsets
    refine ⟨hsets 0 _ rfl, fun a ha => hs.gets a (List.mem_cons_of_mem _ ha), fun k map hk => ?_⟩
    have hnext := hsets (k + 1) map hk
    rwa [Nat.add_comm k, ← Nat.add_assoc] at hnext
  · rintro ⟨hset, hs⟩
    refine ⟨fun a ha => ?_, fun k map hk => ?_⟩
    · rcases List.mem_cons.mp ha with rfl | ha
      · exact Or.inl h
      · exact hs.gets a ha
    · rw [maps_cons h] at hk
      cases k with
      | zero =>
          cases hk
          exact hset
      | succ k =>
          have hnext := hs.sets k map hk
          rwa [Nat.add_assoc, Nat.add_comm 1] at hnext

end

section
variable {stream : Stream} {setChannelMap : ℕ → DaiMap → ℤ}

/-- Where nothing fails the loop ends with the last map, and with what the last codec was asked for. -/
theorem codecDais_succeeds {codecs : List CodecDai} {s : BeState}
    (h : Succeeds stream setChannelMap s.sets codecs s.bufs) :
    (codecDais stream setChannelMap codecs s).cpu = ((maps stream codecs s.bufs).getLast?).or s.cpu ∧
      (codecDais stream setChannelMap codecs s).ret = (((answers codecs s.bufs).getLast?).map (·.1)).getD s.ret := by
  induction codecs generalizing s with
  | nil => exact ⟨rfl, rfl⟩
  | cons codec codecs ih =>
      rcases h.gets _ List.mem_cons_self with hret | hret
      · obtain ⟨hset, hrest⟩ := (succeeds_map hret).mp h
        obtain ⟨hcpu, hlast⟩ :=
          ih (s := ⟨(codec s.bufs).2, s.sets + 1, some ((codec s.bufs).2.daiMap stream), 0⟩) hrest
        rw [codecDais_map hret hset, hcpu, hlast, maps_cons hret, answers]
        simp only [List.getLast?_cons, Option.or_some, Option.some_or, Option.map_some, Option.getD_some]
        refine ⟨trivial, ?_⟩
        cases (answers codecs (codec s.bufs).2).getLast? with
        | none => exact hret.symm
        | some a => rfl
      · obtain ⟨hcpu, hlast⟩ := ih (s := { s with bufs := (codec s.bufs).2, ret := -ENOTSUPP })
          ((succeeds_without hret).mp h)
        rw [codecDais_without hret, hcpu, hlast, maps_without hret, answers]
        refine ⟨rfl, ?_⟩
        simp only [List.getLast?_cons, Option.map_some, Option.getD_some]
        cases (answers codecs (codec s.bufs).2).getLast? with
        | none => exact hret.symm
        | some a => rfl

theorem codecDais_fails {codecs : List CodecDai} {s : BeState}
    (h : ¬Succeeds stream setChannelMap s.sets codecs s.bufs) : (codecDais stream setChannelMap codecs s).ret ≠ 0 := by
  induction codecs generalizing s with
  | nil => exact absurd ⟨fun a ha => absurd ha List.not_mem_nil, fun k map hk => nomatch hk⟩ h
  | cons codec codecs ih =>
      by_cases hret : (codec s.bufs).1 = 0
      · by_cases hset : setChannelMap s.sets ((codec s.bufs).2.daiMap stream) = 0
        · rw [codecDais_map hret hset]
          exact ih fun hrest => h ((succeeds_map hret).mpr ⟨hset, hrest⟩)
        · rw [ret_of_refused hret hset]
          exact hset
      · by_cases hwithout : (codec s.bufs).1 = -ENOTSUPP
        · rw [codecDais_without hwithout]
          exact ih fun hrest => h ((succeeds_without hwithout).mpr hrest)
        · rw [ret_of_fails hwithout hret]
          exact hret

end

/-- A codec without a map makes it fail exactly where it stands last and nothing else failed. -/
theorem be_hw_params_maps_iff (stream : Stream) (setChannelMap : ℕ → DaiMap → ℤ) (id : ℕ) (codecs : List CodecDai)
    (tx rx : ℕ → ℕ) (cpu : Option DaiMap) (hid : SLIMBUS_0_RX ≤ id ∧ id ≤ SLIMBUS_6_TX) :
    Maps stream setChannelMap codecs tx rx cpu (msm8974BeHwParams stream setChannelMap id codecs tx rx cpu) ↔
      (Succeeds stream setChannelMap 0 codecs ⟨0, tx, 0, rx⟩ → LastHasMap codecs ⟨0, tx, 0, rx⟩) := by
  rw [msm8974BeHwParams, if_pos hid]
  by_cases h : Succeeds stream setChannelMap 0 codecs ⟨0, tx, 0, rx⟩
  · obtain ⟨hcpu, hret⟩ := codecDais_succeeds (s := ⟨⟨0, tx, 0, rx⟩, 0, cpu, 0⟩) h
    have hzero : (codecDais stream setChannelMap codecs ⟨⟨0, tx, 0, rx⟩, 0, cpu, 0⟩).ret = 0 ↔
        LastHasMap codecs ⟨0, tx, 0, rx⟩ := by
      rw [hret, LastHasMap]
      cases hlast : (answers codecs ⟨0, tx, 0, rx⟩).getLast? with
      | none => exact iff_of_true rfl fun a ha => nomatch ha
      | some a =>
          have hgets := h.gets a (List.mem_of_getLast? hlast)
          refine ⟨fun ha b hb => ?_, fun ha => hgets.resolve_right (ha a rfl)⟩
          cases hb
          rw [Option.map_some, Option.getD_some] at ha
          rw [ha]
          decide
    exact ⟨fun hmaps _ => hzero.mp (hmaps.ret.mpr h), fun hlast => ⟨iff_of_true (hzero.mpr (hlast h)) h, fun _ => hcpu⟩⟩
  · have hret := codecDais_fails (s := ⟨⟨0, tx, 0, rx⟩, 0, cpu, 0⟩) h
    exact iff_of_true ⟨iff_of_false hret h, fun hzero => absurd hzero hret⟩ fun hs => absurd hs h

/-- A codec with four channels, and one that has no map. -/
def withMap : CodecDai := fun bufs => (0, { bufs with rxCnt := 4, rx := fun i => 144 + i })
def withoutMap : CodecDai := fun bufs => (-ENOTSUPP, bufs)

theorem be_hw_params_without_first : Maps .playback (fun _ _ => 0) [withoutMap, withMap] (fun _ => 7) (fun _ => 7) none
    (msm8974BeHwParams .playback (fun _ _ => 0) SLIMBUS_0_RX [withoutMap, withMap] (fun _ => 7) (fun _ => 7) none) :=
  (be_hw_params_maps_iff _ _ _ _ _ _ _ ⟨Nat.le_refl _, by decide⟩).mpr fun _ a ha => by
    cases ha
    decide

theorem be_hw_params_without_last : ¬Maps .playback (fun _ _ => 0) [withMap, withoutMap] (fun _ => 7) (fun _ => 7) none
    (msm8974BeHwParams .playback (fun _ _ => 0) SLIMBUS_0_RX [withMap, withoutMap] (fun _ => 7) (fun _ => 7) none) := by
  intro h
  have hsucceeds : Succeeds .playback (fun _ _ => 0) 0 [withMap, withoutMap] ⟨0, fun _ => 7, 0, fun _ => 7⟩ := by
    refine ⟨fun a ha => ?_, fun _ _ _ => rfl⟩
    rcases List.mem_cons.mp ha with rfl | ha
    · exact Or.inl rfl
    · rw [List.mem_singleton.mp ha]
      exact Or.inr rfl
  exact absurd (h.ret.mpr hsucceeds) (by decide)

end Sirius.Sndcard
