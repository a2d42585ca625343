import AfterAction.Proofs.Text.Digits
import AfterAction.Proofs.Text.Trimming
import AfterAction.Settings

/-!
The numbers among the settings. Every one of them is read as a number of 64 bits, exactly or not at
all: a numeral gives its value, and whatever is no numeral, or one with no room, leaves the standard
in place. Two of them have room for less. They keep the low half of the number that was read, so a
numeral between the two sizes gives neither its value nor the standard (`overwide_wraps`).
-/

namespace AfterAction
namespace Settings

/-! ## Numerals -/

/-- The text is a decimal numeral for the number, with blanks around it and a plus sign before it
allowed. -/
def Denotes (raw : String) (n : Nat) : Prop :=
  ∃ core digits, Text.Trimmed raw.toList core ∧ (core = digits ∨ core = '+' :: digits) ∧
    digits ≠ [] ∧ (∀ c ∈ digits, c.isDigit = true) ∧ Nat.ofDigitChars 10 digits 0 = n

/-- What a number is read from: the trimmed text without a plus sign before it. -/
theorem number?_eq (raw : String) : ∃ digits,
    (Text.trimChars raw.toList = digits ∧ digits.head? ≠ some '+' ∨
      Text.trimChars raw.toList = '+' :: digits) ∧
    number? raw = if digits = [] then none else
      (Text.valueOfDigits? digits).bind fun n =>
        if n < UInt64.size then some (UInt64.ofNat n) else none := by
  have hread : ∀ digits : List Char, (do
      if digits.isEmpty then none
      let n ← Text.valueOfDigits? digits
      if n < 0x10000000000000000 then some (UInt64.ofNat n) else none : Option UInt64) =
      if digits = [] then none else
        (Text.valueOfDigits? digits).bind fun n =>
          if n < UInt64.size then some (UInt64.ofNat n) else none := by
    intro digits
    cases digits <;> rfl
  rw [number?]
  split
  · rename_i rest hsign
    exact ⟨rest, .inr hsign, hread rest⟩
  · rename_i hsign
    refine ⟨_, .inl ⟨rfl, fun hplus => ?_⟩, hread _⟩
    obtain ⟨rest, hrest⟩ := List.head?_eq_some_iff.mp hplus
    exact hsign rest hrest

theorem denotes_iff {raw : String} {n : Nat} {digits : List Char}
    (h : Text.trimChars raw.toList = digits ∧ digits.head? ≠ some '+' ∨
      Text.trimChars raw.toList = '+' :: digits) :
    Denotes raw n ↔ digits ≠ [] ∧ Text.valueOfDigits? digits = some n := by
  rw [Text.valueOfDigits?_eq_some_iff]
  constructor
  · rintro ⟨core, digits', htrim, hsign, hne, hall, hvalue⟩
    have hplus : ∀ c ∈ digits', c ≠ '+' := by
      rintro c hc rfl
      exact absurd (hall _ hc) (by decide)
    obtain rfl : digits' = digits := by
      rw [htrim.trimChars_eq] at h
      rcases h with ⟨rfl, hhead⟩ | rfl
      · rcases hsign with rfl | rfl
        · rfl
        · exact absurd rfl hhead
      · rcases hsign with rfl | hsign
        · exact absurd rfl (hplus '+' List.mem_cons_self)
        · exact (List.cons.inj hsign).2.symm
    exact ⟨hne, hall, hvalue⟩
  · rintro ⟨hne, hall, hvalue⟩
    exact ⟨_, digits, Text.trimmed_trimChars _, h.imp And.left id, hne, hall, hvalue⟩

theorem number?_of_denotes {raw : String} {n : Nat} (h : Denotes raw n) :
    number? raw = if n < UInt64.size then some (UInt64.ofNat n) else none := by
  obtain ⟨digits, hsign, hread⟩ := number?_eq raw
  obtain ⟨hne, hvalue⟩ := (denotes_iff hsign).mp h
  rw [hread, if_neg hne, hvalue, Option.bind_some]

theorem number?_of_not_denotes {raw : String} (h : ∀ n, ¬ Denotes raw n) : number? raw = none := by
  obtain ⟨digits, hsign, hread⟩ := number?_eq raw
  rw [hread]
  split
  · rfl
  · rename_i hne
    cases hvalue : Text.valueOfDigits? digits with
    | none => rfl
    | some n => exact absurd ((denotes_iff hsign).mpr ⟨hne, hvalue⟩) (h n)

/-- A text denotes one number at most. -/
theorem Denotes.unique {raw : String} {n n' : Nat} (h : Denotes raw n) (h' : Denotes raw n') :
    n = n' := by
  obtain ⟨digits, hsign, -⟩ := number?_eq raw
  exact Option.some.inj (((denotes_iff hsign).mp h).2.symm.trans ((denotes_iff hsign).mp h').2)

/-! ## Numbers taken exactly -/

/-- The value is the number that is given if there is room for it, and the standard in every other
case. -/
structure TakenExactly (given : Option String) (room standard value : Nat) : Prop where
  exactly : ∀ raw n, given = some raw → Denotes raw n → n < room → value = n
  otherwise : (∀ raw n, given = some raw → Denotes raw n → room ≤ n) → value = standard

theorem takenExactly_number? (given : Option String) (standard : UInt64) :
    TakenExactly given UInt64.size standard.toNat ((given.bind number?).getD standard).toNat := by
  constructor
  · rintro raw n rfl hn hroom
    rw [Option.bind_some, number?_of_denotes hn, if_pos hroom, Option.getD_some]
    exact UInt64.toNat_ofNat_of_lt' hroom
  · intro hnone
    cases given with
    | none => rfl
    | some raw =>
      rw [Option.bind_some]
      by_cases hn : ∃ n, Denotes raw n
      · obtain ⟨n, hn⟩ := hn
        have hfull := hnone raw n rfl hn
        rw [number?_of_denotes hn, if_neg (by omega), Option.getD_none]
      · rw [number?_of_not_denotes fun n h => hn ⟨n, h⟩, Option.getD_none]

/-! ## The numbers among the settings -/

inductive Quantity
  | connectTimeout
  | storeTimeout
  | maxRetries
  | breakerThreshold
  | breakerReset
  | tagConcurrency
  | reportWorkers
  | reportTimeout
  | maxTechniques
  | detectionTimeout
  | evasionWindow
  deriving DecidableEq, Repr

namespace Quantity

/-- The name of the variable that gives it. -/
def key : Quantity → String
  | connectTimeout => "PURPLE_CONNECT_TIMEOUT"
  | storeTimeout => "PURPLE_STORE_TIMEOUT"
  | maxRetries => "PURPLE_STORE_MAX_RETRIES"
  | breakerThreshold => "PURPLE_BREAKER_THRESHOLD"
  | breakerReset => "PURPLE_BREAKER_RESET"
  | tagConcurrency => "PURPLE_TAG_CONCURRENCY"
  | reportWorkers => "PURPLE_REPORT_WORKERS"
  | reportTimeout => "PURPLE_REPORT_TIMEOUT"
  | maxTechniques => "PURPLE_MAX_TECHNIQUES"
  | detectionTimeout => "PURPLE_DETECTION_TIMEOUT"
  | evasionWindow => "PURPLE_EVASION_WINDOW"

/-- As many values have room in it. -/
def room : Quantity → Nat
  | maxRetries | breakerThreshold => UInt32.size
  | _ => UInt64.size

def value (s : Settings) : Quantity → Nat
  | connectTimeout => s.connectTimeout.toNat
  | storeTimeout => s.storeTimeout.toNat
  | maxRetries => s.maxRetries.toNat
  | breakerThreshold => s.breakerThreshold.toNat
  | breakerReset => s.breakerReset.toNat
  | tagConcurrency => s.tagConcurrency.toNat
  | reportWorkers => s.reportWorkers.toNat
  | reportTimeout => s.reportTimeout.toNat
  | maxTechniques => s.maxTechniques.toNat
  | detectionTimeout => s.detectionTimeout.toNat
  | evasionWindow => s.evasionWindow.toNat

def standard (q : Quantity) : Nat := q.value Settings.standard

theorem standard_lt_room (q : Quantity) : q.standard < q.room := by
  cases q <;> decide

theorem room_le (q : Quantity) : q.room ≤ UInt64.size := by
  cases q <;> decide

/-- The number that is read, before it is brought into the room there is for it. -/
def taken (lookup : String → Option String) (q : Quantity) : UInt64 :=
  ((lookup q.key).bind number?).getD (UInt64.ofNat q.standard)

theorem value_read (lookup : String → Option String) (q : Quantity) :
    q.value (read lookup) = (q.taken lookup).toNat % q.room := by
  have hwide : ∀ n : UInt64, n.toNat = n.toNat % UInt64.size := fun n =>
    (Nat.mod_eq_of_lt n.toNat_lt).symm
  cases q with
  | maxRetries | breakerThreshold => exact UInt64.toNat_toUInt32 _
  | _ => exact hwide _

theorem takenExactly_taken (lookup : String → Option String) (q : Quantity) :
    TakenExactly (lookup q.key) UInt64.size q.standard (q.taken lookup).toNat := by
  have hstandard : (UInt64.ofNat q.standard).toNat = q.standard :=
    UInt64.toNat_ofNat_of_lt' (Nat.lt_of_lt_of_le q.standard_lt_room q.room_le)
  have h := takenExactly_number? (lookup q.key) (UInt64.ofNat q.standard)
  rwa [hstandard] at h

end Quantity

/-- **Numbers among the settings.** Each is the low part, as far as there is room, of a number that
was taken exactly or not at all. So each is itself taken exactly or not at all, but where a numeral
is given that 64 bits hold and the setting does not. -/
theorem quantities_read (lookup : String → Option String) (q : Quantity) :
    (∃ taken, TakenExactly (lookup q.key) UInt64.size q.standard taken ∧
      q.value (read lookup) = taken % q.room) ∧
    (TakenExactly (lookup q.key) q.room q.standard (q.value (read lookup)) ↔
      ∀ raw n, lookup q.key = some raw → Denotes raw n → q.room ≤ n → n < UInt64.size →
        n % q.room = q.standard) := by
  have htaken := q.takenExactly_taken lookup
  have hvalue := q.value_read lookup
  refine ⟨⟨_, htaken, hvalue⟩, fun h raw n hraw hn hlarge hfits => ?_, fun h => ⟨?_, ?_⟩⟩
  · have hstandard : q.value (read lookup) = q.standard := by
      refine h.otherwise fun raw' n' hraw' hn' => ?_
      obtain rfl := Option.some.inj (hraw.symm.trans hraw')
      exact hn.unique hn' ▸ hlarge
    rw [← hstandard, hvalue, htaken.exactly raw n hraw hn hfits]
  · intro raw n hraw hn hroom
    rw [hvalue, htaken.exactly raw n hraw hn (Nat.lt_of_lt_of_le hroom q.room_le),
      Nat.mod_eq_of_lt hroom]
  · intro hlarge
    by_cases hfits : ∃ raw n, lookup q.key = some raw ∧ Denotes raw n ∧ n < UInt64.size
    · obtain ⟨raw, n, hraw, hn, hfits⟩ := hfits
      rw [hvalue, htaken.exactly raw n hraw hn hfits]
      exact h raw n hraw hn (hlarge raw n hraw hn) hfits
    · have hnone : (q.taken lookup).toNat = q.standard := by
        refine htaken.otherwise fun raw n hraw hn => Nat.le_of_not_lt fun hlt => ?_
        exact hfits ⟨raw, n, hraw, hn, hlt⟩
      rw [hvalue, hnone, Nat.mod_eq_of_lt q.standard_lt_room]

/-- An operator who asks for one retry more than there is room for, and else for nothing. -/
def overwide : String → Option String := fun name =>
  if name = "PURPLE_STORE_MAX_RETRIES" then some "4294967296" else none

/-- The number that is given has no room, and yet the standard does not hold: it comes out as no
retries at all, and the checks find no fault. -/
theorem overwide_wraps : Denotes "4294967296" UInt32.size ∧ (read overwide).maxRetries = 0 ∧
    Settings.standard.maxRetries = 3 ∧ (read overwide).fault? = none ∧
    ¬ TakenExactly (overwide Quantity.maxRetries.key) Quantity.maxRetries.room
      Quantity.maxRetries.standard (Quantity.maxRetries.value (read overwide)) := by
  have htrim : Text.trimChars "4294967296".toList = "4294967296".toList := by decide +kernel
  have hdenotes : Denotes "4294967296" UInt32.size :=
    (denotes_iff (.inl ⟨htrim, by decide +kernel⟩)).mpr ⟨by decide +kernel, by decide +kernel⟩
  have hzero : (read overwide).maxRetries = 0 := by decide +kernel
  refine ⟨hdenotes, hzero, rfl, by decide +kernel, fun h => ?_⟩
  have hstandard := h.otherwise fun raw n hraw hn => by
    obtain rfl := Option.some.inj hraw
    exact Nat.le_of_eq (hdenotes.unique hn)
  exact absurd hstandard (by decide +kernel)

end Settings
end AfterAction
