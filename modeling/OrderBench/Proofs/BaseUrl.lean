import OrderBench.Proofs.OrderUrls
import Mathlib.Data.List.DropRight

/-!
The base URL of an order service. Slashes at the end of a URL are dropped twice, when settings are accepted and when
an endpoint is opened, and both come to the same base, however many there are.
-/
namespace OrderBench

def slashes (n : Nat) : String := String.ofList (List.replicate n '/')

/-- The URL is the text without the slashes at its end. -/
structure Trimmed (text url : String) : Prop where
  text_eq : ∃ n, text = url ++ slashes n
  last : url.toList.getLast? ≠ some '/'

theorem toList_trimSlashes (text : String) : (trimSlashes text).toList = text.toList.rdropWhile (· == '/') := by
  rw [trimSlashes, String.toList_ofList]
  rfl

theorem trimSlashes_append (text : String) (n : Nat) : trimSlashes (text ++ slashes n) = trimSlashes text := by
  rw [← String.toList_inj, toList_trimSlashes, toList_trimSlashes, String.toList_append, slashes, String.toList_ofList]
  induction n with
  | zero => rw [List.replicate_zero, List.append_nil]
  | succ n ih => rw [List.replicate_succ', ← List.append_assoc, List.rdropWhile_concat_pos _ _ _ rfl, ih]

theorem trimSlashes_eq_self {url : String} (h : url.toList.getLast? ≠ some '/') : trimSlashes url = url := by
  rw [← String.toList_inj, toList_trimSlashes, List.rdropWhile_eq_self_iff]
  intro hne hlast
  apply h
  rw [List.getLast?_eq_some_getLast hne, beq_iff_eq.mp hlast]

theorem trimmed_iff {text url : String} : Trimmed text url ↔ url = trimSlashes text := by
  constructor
  · rintro ⟨⟨n, rfl⟩, hlast⟩
    rw [trimSlashes_append, trimSlashes_eq_self hlast]
  · rintro rfl
    refine ⟨⟨(text.toList.rtakeWhile (· == '/')).length, ?_⟩, ?_⟩
    · have hslashes : text.toList.rtakeWhile (· == '/') = List.replicate _ '/' :=
        List.eq_replicate_of_mem fun c hc => eq_of_beq (List.mem_rtakeWhile_imp (p := (· == '/')) hc)
      rw [← String.toList_inj, String.toList_append, toList_trimSlashes, slashes, String.toList_ofList, ← hslashes,
        List.rdropWhile_append_rtakeWhile]
    · rw [toList_trimSlashes]
      intro hlast
      obtain ⟨front, hfront⟩ := List.getLast?_eq_some_iff.mp hlast
      have hne : text.toList.rdropWhile (· == '/') ≠ [] := by simp [hfront]
      apply List.rdropWhile_last_not _ _ hne
      simp [hfront]

theorem trimSlashes_ne_empty_iff {text : String} : trimSlashes text ≠ "" ↔ ∃ c ∈ text.toList, c ≠ '/' := by
  rw [ne_eq, ← String.toList_eq_nil_iff, toList_trimSlashes, List.rdropWhile_eq_nil_iff]
  simp

namespace Settings

variable {s c : Settings}

theorem validate_eq_ok_iff :
    s.validate = .ok () ↔ (1 ≤ s.concurrency ∧ s.concurrency ≤ maxPermits) ∧ s.url ≠ "" := by
  unfold validate
  split
  · next hzero => simp [hzero]
  · next hzero =>
    split
    · next hgreat => simp [Nat.not_le_of_lt hgreat]
    · next hgreat =>
      have hlimits : 1 ≤ s.concurrency ∧ s.concurrency ≤ maxPermits :=
        ⟨Nat.pos_of_ne_zero hzero, Nat.le_of_not_lt hgreat⟩
      rw [and_iff_right hlimits]
      split
      · next hurl => simpa using hurl
      · next hurl => simpa using hurl

theorem accept_eq_ok_iff : s.accept = .ok c ↔
    c = { s with url := trimSlashes s.url } ∧ (1 ≤ c.concurrency ∧ c.concurrency ≤ maxPermits) ∧ c.url ≠ "" := by
  have haccept : s.accept = ({ s with url := trimSlashes s.url } : Settings).validate.bind fun _ =>
    .ok { s with url := trimSlashes s.url } := rfl
  rw [haccept, bind_eq_ok_iff]
  constructor
  · rintro ⟨⟨⟩, hv, hc⟩
    cases hc
    exact ⟨rfl, validate_eq_ok_iff.mp hv⟩
  · rintro ⟨rfl, hv⟩
    exact ⟨(), validate_eq_ok_iff.mpr hv, rfl⟩

end Settings

theorem trimSlashes_trimSlashes (text : String) : trimSlashes (trimSlashes text) = trimSlashes text :=
  trimSlashes_eq_self (trimmed_iff.mpr rfl).last

theorem Endpoint.opening_append (text : String) (n : Nat) (userId : Int64) :
    opening (text ++ slashes n) userId = opening text userId := by
  rw [opening, opening, trimSlashes_append]

/-- Slashes at the end of a URL make no difference, neither to whether settings are accepted and as what, nor to the
endpoint that is opened on it. An accepted URL is not empty and has no slash at its end; an endpoint keeps it as it is,
and where it is opened on the text that was given, its requests go to URLs that begin with the accepted one. -/
theorem base_urls_agree (s : Settings) (n : Nat) :
    let slashed : Settings := { s with url := s.url ++ slashes n }
    slashed.accept = s.accept ∧
    (∀ userId, Endpoint.opening slashed.url userId = Endpoint.opening s.url userId ∧
      Endpoint.opening (Endpoint.opening s.url userId).baseUrl userId = Endpoint.opening s.url userId) ∧
    ∀ c, s.accept = .ok c →
      c.url ≠ "" ∧ c.url.toList.getLast? ≠ some '/' ∧ (∃ m, s.url = c.url ++ slashes m) ∧
      ∀ userId, Endpoint.opening c.url userId = ⟨c.url, userId⟩ ∧
        Endpoint.opening slashed.url userId = ⟨c.url, userId⟩ ∧
        (∀ order, (Endpoint.opening slashed.url userId).url (.place order) = c.url ++ "/api/orders") ∧
        (∀ id, (Endpoint.opening slashed.url userId).url (.cancel id) = c.url ++ "/api/orders/" ++ id) ∧
        ∀ call r, (Endpoint.opening slashed.url userId).request call = .ok r →
          Uri.parse ((Endpoint.opening slashed.url userId).url call) = .ok r.uri := by
  intro slashed
  refine ⟨?_, ?_, ?_⟩
  · unfold Settings.accept
    rw [trimSlashes_append]
  · intro userId
    refine ⟨Endpoint.opening_append s.url n userId, ?_⟩
    unfold Endpoint.opening
    rw [trimSlashes_trimSlashes]
  · intro c hc
    obtain ⟨hurl, -, hne⟩ := Settings.accept_eq_ok_iff.mp hc
    have hurl : c.url = trimSlashes s.url := congrArg Settings.url hurl
    have htrimmed : Trimmed s.url c.url := trimmed_iff.mpr hurl
    refine ⟨hne, htrimmed.last, htrimmed.text_eq, ?_⟩
    intro userId
    have hopening : Endpoint.opening slashed.url userId = ⟨c.url, userId⟩ := by
      rw [Endpoint.opening_append, hurl]
      rfl
    have hkept : Endpoint.opening c.url userId = ⟨c.url, userId⟩ := by
      rw [Endpoint.opening, trimSlashes_eq_self htrimmed.last]
    rw [hopening]
    refine ⟨hkept, rfl, fun _ => rfl, ?_, fun _ _ hr => (Endpoint.request_ok hr).1⟩
    intro id
    have hslash : c.url ++ "/api/orders" ++ "/" = c.url ++ "/api/orders/" := String.append_assoc
    exact congrArg (· ++ id) hslash

/-- Two slashes and five, and a URL of slashes alone, which is not accepted. -/
theorem base_urls_agree_with_five_slashes :
    let s : Settings := { url := "http://h//" }
    let c : Settings := { url := "http://h" }
    let e := Endpoint.opening "http://h/////" 7
    s.accept = .ok c ∧ { s with url := "http://h/////" }.accept = .ok c ∧
      { s with url := "///" }.accept = .error .emptyUrl ∧
      Endpoint.opening c.url 7 = e ∧ e.baseUrl = c.url ∧ e.url (.cancel "1/") = "http://h/api/orders/1/" := by
  intro s c e
  have haccept : s.accept = .ok c := by decide
  obtain ⟨hslashed, -, hc⟩ := base_urls_agree s 3
  obtain ⟨hempty, -, -⟩ := base_urls_agree { s with url := "" } 3
  obtain ⟨-, -, -, hopening⟩ := hc c haccept
  obtain ⟨hkept, he, -, hcancel, -⟩ := hopening 7
  refine ⟨haccept, hslashed.trans haccept, hempty.trans (by decide), hkept.trans he.symm, ?_, hcancel "1/"⟩
  exact congrArg Endpoint.baseUrl he

end OrderBench
