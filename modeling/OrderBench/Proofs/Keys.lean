import OrderBench.CommandLine.Help
import OrderBench.Proofs.Integers
import OrderBench.Proofs.Lists

/-!
The settings key by key. A text that is given for a key replaces the value of that key and no other, so that texts for
different keys can be given in any order.
-/
namespace OrderBench

/-! Values. -/

namespace Key

abbrev Value : Key → Type
  | .url | .symbol | .logLevel => String
  | .concurrency | .total => Nat
  | .testType => Workload
  | .userId => Int64

def get (s : Settings) : (k : Key) → k.Value
  | .url => s.url
  | .concurrency => s.concurrency
  | .total => s.total
  | .testType => s.workload
  | .symbol => s.symbol
  | .userId => s.userId
  | .logLevel => s.logLevel

def set (s : Settings) : (k : Key) → k.Value → Settings
  | .url, v => { s with url := v }
  | .concurrency, v => { s with concurrency := v }
  | .total, v => { s with total := v }
  | .testType, v => { s with workload := v }
  | .symbol, v => { s with symbol := v }
  | .userId, v => { s with userId := v }
  | .logLevel, v => { s with logLevel := v }

/-- The text is one of the value, as the type of the key has it. -/
def Spells : (k : Key) → String → k.Value → Prop
  | .url, text, v | .symbol, text, v | .logLevel, text, v => text = v
  | .concurrency, text, n | .total, text, n => CountText text n
  | .testType, text, w => text = word w
  | .userId, text, n => Int64Text text n

def read : (k : Key) → String → Except UsageError k.Value
  | .url, text | .symbol, text | .logLevel, text => .ok text
  | .concurrency, text => (readCount maxCount text).mapError (.notAnInteger text .concurrency)
  | .total, text => (readCount maxCount text).mapError (.notAnInteger text .total)
  | .testType, text => readWorkload .testType text
  | .userId, text => (readInt64 text).mapError (.notAnInteger text .userId)

variable {s t : Settings} {j k : Key}

theorem get_set (s : Settings) (k : Key) (v : k.Value) : k.get (k.set s v) = v := by
  cases k <;> rfl

theorem get_set_of_ne (h : j ≠ k) (s : Settings) (v : k.Value) : get (k.set s v) j = get s j := by
  cases j <;> cases k <;> first | rfl | exact absurd rfl h

theorem settings_ext (h : ∀ k, get s k = get t k) : s = t := by
  cases s
  cases t
  rw [Settings.mk.injEq]
  exact ⟨h .url, h .concurrency, h .total, h .testType, h .symbol, h .userId, h .logLevel⟩

theorem exists_settings (v : ∀ k : Key, k.Value) : ∃ s, ∀ k, get s k = v k := by
  refine ⟨⟨v .url, v .concurrency, v .total, v .testType, v .symbol, v .userId, v .logLevel⟩, ?_⟩
  intro k
  cases k <;> rfl

theorem readWorkload_eq_ok_iff {text : String} {w : Workload} : readWorkload k text = .ok w ↔ text = word w := by
  constructor
  · intro h
    unfold readWorkload at h
    split at h
    · cases h
    · split at h
      · next hw =>
        cases h
        have hword : word w = text := by simpa using List.find?_some hw
        exact hword.symm
      · cases h
  · rintro rfl
    cases w <;> rfl

theorem read_eq_ok_iff {text : String} {v : k.Value} : k.read text = .ok v ↔ k.Spells text v := by
  cases k with
  | url | symbol | logLevel => rw [read, Spells, Except.ok.injEq]
  | concurrency | total => exact mapError_eq_ok_iff.trans readCount_eq_ok_iff
  | testType => exact readWorkload_eq_ok_iff
  | userId => exact mapError_eq_ok_iff.trans readInt64_eq_ok_iff

theorem Spells.unique {text : String} {v w : k.Value} (hv : k.Spells text v) (hw : k.Spells text w) : v = w :=
  Except.ok.inj ((read_eq_ok_iff.mpr hv).symm.trans (read_eq_ok_iff.mpr hw))

theorem assign_eq (k : Key) (text : String) (s : Settings) : k.assign text s = (k.read text).map (k.set s) := by
  cases k with
  | url | symbol | logLevel | testType => rfl
  | concurrency | total | userId => exact mapError_map _ _

/-- Every default is a text of its own value. -/
theorem default_spells (k : Key) : k.Spells k.default (get {} k) := by
  rw [← read_eq_ok_iff]
  cases k <;> rfl

end Key

/-! Texts for several keys. -/

namespace Settings

variable {s t : Settings} {texts : List (Key × String)}

/-- The settings with the values that texts give, one key after the other. -/
def assignAll (s : Settings) (texts : List (Key × String)) : Except UsageError Settings :=
  texts.foldlM (fun s given => given.1.assign given.2 s) s

/-- In `t`, a key has the value of the text that is given for it, else the one that it has in `s`. -/
def Takes (s t : Settings) (k : Key) : Option String → Prop
  | some text => k.Spells text (Key.get t k)
  | none => Key.get t k = Key.get s k

theorem takes_default {k : Key} {given : Option String} :
    ({} : Settings).Takes t k given ↔ k.Spells (given.getD k.default) (Key.get t k) := by
  cases given with
  | none =>
      constructor
      · intro h
        have h : Key.get t k = Key.get {} k := h
        rw [h]
        exact Key.default_spells k
      · intro h
        exact h.unique (Key.default_spells k)
  | some text => rfl

theorem Takes.set_iff {j k : Key} (h : k ≠ j) {v : j.Value} {given : Option String} :
    (j.set s v).Takes t k given ↔ s.Takes t k given := by
  cases given with
  | none => rw [Takes, Takes, Key.get_set_of_ne h]
  | some text => rfl

theorem assignAll_cons (j : Key) (text : String) :
    s.assignAll ((j, text) :: texts) = (j.read text).bind fun v => (j.set s v).assignAll texts := by
  rw [assignAll, List.foldlM_cons, Key.assign_eq]
  cases j.read text <;> rfl

theorem assignAll_append (more : List (Key × String)) :
    s.assignAll (texts ++ more) = (s.assignAll texts).bind fun t => t.assignAll more :=
  List.foldlM_append

theorem assignAll_eq_ok_iff (h : (texts.map Prod.fst).Nodup) :
    s.assignAll texts = .ok t ↔ ∀ k, s.Takes t k (texts.lookup k) := by
  induction texts generalizing s with
  | nil =>
      constructor
      · rintro ⟨⟩ k
        rfl
      · intro hk
        exact congrArg Except.ok (Key.settings_ext fun k => (hk k).symm)
  | cons given texts ih =>
      obtain ⟨j, text⟩ := given
      obtain ⟨hj, hn⟩ := List.nodup_cons.mp h
      have hnone : texts.lookup j = none := lookup_eq_none_iff.mpr hj
      rw [assignAll_cons, bind_eq_ok_iff]
      constructor
      · rintro ⟨v, hread, hrest⟩ k
        rw [ih hn] at hrest
        by_cases hk : k = j
        · subst hk
          have hv := hrest k
          rw [hnone] at hv
          obtain rfl : Key.get t k = v := hv.trans (Key.get_set s k v)
          rw [List.lookup_cons_self]
          exact Key.read_eq_ok_iff.mp hread
        · rw [lookup_cons_of_ne hk]
          exact (Takes.set_iff hk).mp (hrest k)
      · intro hall
        refine ⟨Key.get t j, ?_, (ih hn).mpr ?_⟩
        · have hself := hall j
          rw [List.lookup_cons_self] at hself
          exact Key.read_eq_ok_iff.mpr hself
        · intro k
          by_cases hk : k = j
          · subst hk
            rw [hnone]
            exact (Key.get_set s k _).symm
          · have hk' := hall k
            rw [lookup_cons_of_ne hk] at hk'
            exact (Takes.set_iff hk).mpr hk'

end Settings

end OrderBench
