import OrderBench.CommandLine.Parse
import OrderBench.Proofs.BaseUrl
import OrderBench.Proofs.Keys

/-!
Where settings come from. A key has the text of its flag, else that of its variable, else its default; the order of
the flags makes no difference, nor does the variable of a flag that is given.
-/
namespace OrderBench

/-! Names and values on the two sides of an equals sign. -/

section
variable {name : List Char} (h : '=' ∉ name) (value : List Char)
include h

theorem takeWhile_equals : (name ++ '=' :: value).takeWhile (· ≠ '=') = name := by
  rw [List.takeWhile_append_of_pos]
  · rw [List.takeWhile_cons_of_neg (by decide), List.append_nil]
  · intro c hc
    exact decide_eq_true fun he : c = '=' => h (he ▸ hc)

theorem dropWhile_equals : (name ++ '=' :: value).dropWhile (· ≠ '=') = '=' :: value := by
  rw [List.dropWhile_append_of_pos]
  · rw [List.dropWhile_cons_of_neg (by decide)]
  · intro c hc
    exact decide_eq_true fun he : c = '=' => h (he ▸ hc)

end

namespace Environment

/-- No name has an equals sign in it, which would end it. -/
def Named (env : Environment) : Prop := ∀ p ∈ env, '=' ∉ p.1.toList

instance (env : Environment) : Decidable env.Named := inferInstanceAs (Decidable (∀ p ∈ env, _))

theorem isPrefixOf?_equals {name other : String} (hname : '=' ∉ name.toList) (hother : '=' ∉ other.toList)
    (value : String) : ((name ++ "=").toList.isPrefixOf? (other ++ "=" ++ value).toList).map String.ofList =
      if name = other then some value else none := by
  have htext : (other ++ "=" ++ value).toList = other.toList ++ '=' :: value.toList := by simp
  have hfront (rest : List Char) : (name ++ "=").toList ++ rest = name.toList ++ '=' :: rest := by simp
  split
  · next he =>
    rw [he] at hfront
    rw [he, List.isPrefixOf?_eq_some_iff_append_eq.mpr ((hfront value.toList).trans htext.symm), Option.map_some,
      String.ofList_toList]
  · next hne =>
    rw [Option.map_eq_none_iff, Option.eq_none_iff_forall_ne_some]
    intro rest hrest
    rw [List.isPrefixOf?_eq_some_iff_append_eq, hfront, htext] at hrest
    have hnames := congrArg (List.takeWhile (· ≠ '=')) hrest
    rw [takeWhile_equals hname, takeWhile_equals hother] at hnames
    exact hne (String.toList_inj.mp hnames)

theorem value?_eq_lookup {env : Environment} {name : String} (henv : env.Named) (hne : name ≠ "")
    (hname : '=' ∉ name.toList) : env.value? name = env.lookup name := by
  rw [value?, if_neg (by simpa using hne)]
  induction env with
  | nil => rfl
  | cons p env ih =>
      obtain ⟨other, value⟩ := p
      rw [List.findSome?_cons]
      dsimp only
      rw [isPrefixOf?_equals hname (henv (other, value) (List.mem_cons_self ..))]
      by_cases he : name = other
      · subst he
        rw [if_pos rfl, List.lookup_cons_self]
      · rw [if_neg he, lookup_cons_of_ne he]
        exact ih fun p hp => henv p (List.mem_cons_of_mem _ hp)

end Environment

namespace Key

theorem flag_named (k : Key) : '=' ∉ k.flag.toList := by
  cases k <;> decide

theorem ofFlag?_flag (k : Key) : ofFlag? k.flag = some k := by
  cases k <;> decide

theorem mem_all (k : Key) : k ∈ all := by
  cases k <;> decide

theorem nodup_all : all.Nodup := by decide

theorem value?_eq {env : Environment} (henv : env.Named) (k : Key) : k.value? env = env.lookup k.variableName := by
  apply Environment.value?_eq_lookup henv <;> cases k <;> decide

/-- A flag with its value behind an equals sign. -/
def argument (k : Key) (text : String) : String := "--" ++ k.flag ++ "=" ++ text

end Key

/-! The command line. -/

namespace CommandLine

def arguments (texts : List (Key × String)) : List String := texts.map fun p => p.1.argument p.2

variable {s : Settings} {given : List Key}

theorem split_equals {name : String} (h : '=' ∉ name.toList) (value : String) :
    Progress.split (name.toList ++ '=' :: value.toList) = (name, some value) := by
  rw [Progress.split, takeWhile_equals h, dropWhile_equals h]
  dsimp only
  rw [String.ofList_toList, String.ofList_toList]

theorem next_argument {k : Key} (h : k ∉ given) (text : String) :
    Progress.next { settings := s, given } (k.argument text) =
      ((k.assign text s).map fun t => { settings := t, given := k :: given }).mapError .usage := by
  have hlong : Progress.longFlag { settings := s, given } (k.flag.toList ++ '=' :: text.toList) =
      (Progress.give { settings := s, given } k text).mapError .usage := by
    rw [Progress.longFlag, split_equals k.flag_named]
    dsimp only
    rw [Key.ofFlag?_flag]
    rfl
  have hbody : (k.argument text).toList = '-' :: '-' :: (k.flag.toList ++ '=' :: text.toList) := by
    simp [Key.argument]
  obtain ⟨c, cs, hcons⟩ : ∃ c cs, k.flag.toList ++ '=' :: text.toList = c :: cs :=
    List.exists_cons_of_ne_nil (by simp)
  rw [Progress.give, if_neg h, hcons] at hlong
  rw [Progress.next, hbody, hcons]
  exact hlong

theorem foldlM_argument {texts : List (Key × String)} (h : (texts.map Prod.fst ++ given).Nodup) :
    (arguments texts).foldlM Progress.next { settings := s, given } =
      ((s.assignAll texts).map fun t =>
        { settings := t, given := (texts.map Prod.fst).reverse ++ given }).mapError .usage := by
  induction texts generalizing s given with
  | nil => rfl
  | cons p texts ih =>
      obtain ⟨k, text⟩ := p
      have hk : k ∉ texts.map Prod.fst ++ given := (List.nodup_cons.mp h).1
      have hrest : (texts.map Prod.fst ++ k :: given).Nodup := List.nodup_middle.mpr h
      rw [arguments, List.map_cons, List.foldlM_cons, next_argument (fun hm => hk (List.mem_append_right _ hm)),
        Settings.assignAll, List.foldlM_cons]
      dsimp only
      cases k.assign text s with
      | error e => rfl
      | ok t =>
          have ih := ih (s := t) hrest
          rw [List.map_cons, List.reverse_cons, List.append_assoc]
          exact ih

/-- The keys whose variables are set, with their texts. -/
def variableTexts (env : Environment) (keys : List Key) : List (Key × String) :=
  keys.filterMap fun k => (k.value? env).map (k, ·)

theorem consult_eq (env : Environment) (k : Key) :
    Progress.consult { settings := s, given } env k =
      if k ∈ given then .ok { settings := s, given }
      else match k.value? env with
        | none => .ok { settings := s, given }
        | some text => (k.assign text s).map fun t => { settings := t, given := k :: given } := by
  rw [Progress.consult]
  cases k.value? env with
  | none => rw [ite_self]
  | some text =>
      dsimp only
      split
      · rfl
      · next h => rw [Progress.give, if_neg h]

theorem foldlM_consult {env : Environment} {keys : List Key} (h : keys.Nodup) :
    (keys.foldlM (fun p k => Progress.consult p env k) { settings := s, given }).map Progress.settings =
      s.assignAll (variableTexts env (keys.filter (· ∉ given))) := by
  induction keys generalizing s given with
  | nil => rfl
  | cons k keys ih =>
      obtain ⟨hk, hkeys⟩ := List.nodup_cons.mp h
      rw [List.foldlM_cons, consult_eq]
      by_cases hgiven : k ∈ given
      · rw [if_pos hgiven, List.filter_cons_of_neg (by simpa using hgiven)]
        exact ih hkeys
      · rw [if_neg hgiven, List.filter_cons_of_pos (by simpa using hgiven), variableTexts, List.filterMap_cons]
        cases k.value? env with
        | none => exact ih hkeys
        | some text =>
            -- of the keys that are left, the one just given is none
            have hfilter : keys.filter (· ∉ k :: given) = keys.filter (· ∉ given) := by
              apply List.filter_congr
              intro j hj
              have hne : j ≠ k := fun he => hk (he ▸ hj)
              simp [hne]
            dsimp only [Option.map_some]
            rw [Settings.assignAll, List.foldlM_cons]
            dsimp only
            cases k.assign text s with
            | error e => rfl
            | ok t =>
                rw [← hfilter]
                exact ih hkeys

/-- The texts of flags, and for the other keys those of variables. -/
def sources (texts : List (Key × String)) (env : Environment) : List (Key × String) :=
  texts ++ variableTexts env (Key.all.filter (· ∉ texts.map Prod.fst))

theorem settings_eq {texts : List (Key × String)} (h : (texts.map Prod.fst).Nodup) (env : Environment) :
    settings (arguments texts) env =
      (({} : Settings).assignAll (sources texts env)).mapError .usage := by
  have hargs : (arguments texts).foldlM Progress.next {} =
      ((({} : Settings).assignAll texts).map fun t =>
        { settings := t, given := (texts.map Prod.fst).reverse ++ [] }).mapError .usage :=
    foldlM_argument (by simpa using h)
  have hfilter : Key.all.filter (· ∉ texts.map Prod.fst) =
      Key.all.filter (· ∉ (texts.map Prod.fst).reverse ++ []) := by
    simp only [List.append_nil, List.mem_reverse]
  rw [settings, hargs, sources, Settings.assignAll_append, hfilter]
  generalize (texts.map Prod.fst).reverse ++ [] = given
  cases ({} : Settings).assignAll texts with
  | error e => rfl
  | ok t =>
      dsimp only [Except.bind]
      rw [← foldlM_consult Key.nodup_all]
      change (Except.mapError Stop.usage (Key.all.foldlM (fun p k => Progress.consult p env k)
        { settings := t, given })).bind (fun p => .ok p.settings) = _
      cases Key.all.foldlM (fun p k => Progress.consult p env k) { settings := t, given } <;> rfl

section
variable {texts : List (Key × String)} {env : Environment}

theorem lookup_sources (henv : env.Named) (k : Key) :
    (sources texts env).lookup k = (texts.lookup k).or (env.lookup k.variableName) := by
  rw [sources, List.lookup_append, variableTexts, lookup_filterMap, Key.value?_eq henv]
  cases hk : texts.lookup k with
  | none => simp [Key.mem_all, lookup_eq_none_iff.mp hk]
  | some text => rfl

theorem sources_nodup (h : (texts.map Prod.fst).Nodup) (env : Environment) :
    ((sources texts env).map Prod.fst).Nodup := by
  have hkeys (keys : List Key) : (variableTexts env keys).map Prod.fst = keys.filter fun k => (k.value? env).isSome := by
    induction keys with
    | nil => rfl
    | cons k keys ih =>
        rw [variableTexts, List.filterMap_cons, List.filter_cons]
        cases k.value? env with
        | none => exact ih
        | some text => exact congrArg (k :: ·) ih
  rw [sources, List.map_append, hkeys, List.nodup_append]
  refine ⟨h, (Key.nodup_all.filter _).filter _, ?_⟩
  rintro k hk _ hfilter rfl
  simp [hk] at hfilter

/-- The text that counts for a key: that of its flag, else that of its variable, else its default. -/
def effective (texts : List (Key × String)) (env : Environment) (k : Key) : String :=
  ((texts.lookup k).or (env.lookup k.variableName)).getD k.default

theorem settings_eq_ok_iff (h : (texts.map Prod.fst).Nodup) (henv : env.Named) {s : Settings} :
    settings (arguments texts) env = .ok s ↔ ∀ k : Key, k.Spells (effective texts env k) (k.get s) := by
  rw [settings_eq h, mapError_eq_ok_iff, Settings.assignAll_eq_ok_iff (sources_nodup h env)]
  simp only [lookup_sources henv, Settings.takes_default]
  rfl

theorem load_congr {env' : Environment} (h : (texts.map Prod.fst).Nodup)
    (hsame : ∀ k, k ∉ texts.map Prod.fst → k.value? env' = k.value? env) :
    load (arguments texts) env' = load (arguments texts) env := by
  have hsources : sources texts env' = sources texts env := by
    unfold sources variableTexts
    congr 1
    apply List.filterMap_congr
    intro k hk
    have hgiven : k ∉ texts.map Prod.fst := by simpa using (List.mem_filter.mp hk).2
    rw [hsame k hgiven]
  rw [load, load, settings_eq h, settings_eq h, hsources]

end

end CommandLine

/-- The settings that texts come to: the URL without the slashes at its end, all else as it is spelled. -/
structure Settings.Resolves (s : Settings) (text : Key → String) : Prop where
  url : Trimmed (text .url) s.url
  spelled : ∀ k : Key, k ≠ .url → k.Spells (text k) (k.get s)
  concurrency : 1 ≤ s.concurrency ∧ s.concurrency ≤ 2305843009213693951
  url_ne : s.url ≠ ""

open CommandLine

theorem load_eq_ok_iff {texts : List (Key × String)} {env : Environment} (h : (texts.map Prod.fst).Nodup)
    (henv : env.Named) {s : Settings} : load (arguments texts) env = .ok s ↔ s.Resolves (effective texts env) := by
  have hload : load (arguments texts) env =
      (settings (arguments texts) env).bind fun t => t.accept.mapError .invalid := rfl
  rw [hload, bind_eq_ok_iff]
  constructor
  · rintro ⟨t, ht, hs⟩
    rw [settings_eq_ok_iff h henv] at ht
    obtain ⟨rfl, hlimits, hne⟩ := Settings.accept_eq_ok_iff.mp (mapError_eq_ok_iff.mp hs)
    have hurl : effective texts env .url = t.url := ht .url
    refine ⟨trimmed_iff.mpr (by rw [hurl]), ?_, hlimits, hne⟩
    intro k hk
    have hget := Key.get_set_of_ne hk t (trimSlashes t.url)
    exact hget ▸ ht k
  · rintro ⟨hurl, hspelled, hlimits, hne⟩
    refine ⟨{ s with url := effective texts env .url }, ?_, ?_⟩
    · rw [settings_eq_ok_iff h henv]
      intro k
      by_cases hk : k = .url
      · subst hk
        rfl
      · have hget := Key.get_set_of_ne hk s (effective texts env .url)
        exact hget ▸ hspelled k hk
    · rw [mapError_eq_ok_iff, Settings.accept_eq_ok_iff]
      refine ⟨?_, hlimits, hne⟩
      rw [← trimmed_iff.mp hurl]

theorem exists_resolves_iff {text : Key → String} : (∃ s : Settings, s.Resolves text) ↔
    (∀ k : Key, ∃ v, k.Spells (text k) v) ∧
      (∀ n, CountText (text .concurrency) n → 1 ≤ n ∧ n ≤ 2305843009213693951) ∧
      ∃ c ∈ (text .url).toList, c ≠ '/' := by
  constructor
  · rintro ⟨s, hs⟩
    refine ⟨?_, ?_, ?_⟩
    · intro k
      by_cases hk : k = .url
      · subst hk
        exact ⟨text .url, rfl⟩
      · exact ⟨_, hs.spelled k hk⟩
    · intro n hn
      have hconcurrency := hs.spelled .concurrency nofun
      obtain rfl : n = s.concurrency := Key.Spells.unique (k := .concurrency) hn hconcurrency
      exact hs.concurrency
    · rw [← trimSlashes_ne_empty_iff, ← trimmed_iff.mp hs.url]
      exact hs.url_ne
  · rintro ⟨hvalid, hlimits, hurl⟩
    choose v hv using hvalid
    obtain ⟨s, hs⟩ := Key.exists_settings v
    refine ⟨{ s with url := trimSlashes (text .url) }, trimmed_iff.mpr rfl, ?_, ?_, trimSlashes_ne_empty_iff.mpr hurl⟩
    · intro k hk
      have hget := Key.get_set_of_ne hk s (trimSlashes (text .url))
      exact hget ▸ hs k ▸ hv k
    · have hconcurrency : s.concurrency = v .concurrency := hs .concurrency
      exact hconcurrency ▸ hlimits _ (hv .concurrency)

/-- On a command line of different flags, each with its value behind an equals sign, a key has the text of its flag, else
that of its variable, else its default. The launch has settings just when each text is one of its type, the concurrency
is one that a limiter can have and the URL is more than slashes; then they have the values of the texts. Neither the
order of the flags nor the variable of a flag that is given makes a difference. -/
theorem settings_resolved {texts : List (Key × String)} {env : Environment} (h : (texts.map Prod.fst).Nodup)
    (henv : env.Named) :
    let text := effective texts env
    ((∃ s, load (arguments texts) env = .ok s) ↔
      (∀ k : Key, ∃ v, k.Spells (text k) v) ∧
        (∀ n, CountText (text .concurrency) n → 1 ≤ n ∧ n ≤ 2305843009213693951) ∧
        ∃ c ∈ (text .url).toList, c ≠ '/') ∧
    (∀ s, load (arguments texts) env = .ok s ↔ s.Resolves text) ∧
    (∀ others, others.Perm texts → ∀ s,
      load (arguments others) env = .ok s ↔ load (arguments texts) env = .ok s) ∧
    ∀ env' : Environment, env'.Named →
      (∀ k : Key, k ∉ texts.map Prod.fst → env'.lookup k.variableName = env.lookup k.variableName) →
      load (arguments texts) env' = load (arguments texts) env := by
  intro text
  refine ⟨?_, ?_, ?_, ?_⟩
  · rw [← exists_resolves_iff]
    exact exists_congr fun s => load_eq_ok_iff h henv
  · intro s
    exact load_eq_ok_iff h henv
  · intro others hperm s
    have hothers : (others.map Prod.fst).Nodup := (hperm.map Prod.fst).nodup_iff.mpr h
    have heffective : effective others env = effective texts env := by
      funext k
      rw [effective, effective, lookup_perm hothers hperm]
    rw [load_eq_ok_iff h henv, load_eq_ok_iff hothers henv, heffective]
  · intro env' henv' hsame
    apply load_congr h
    intro k hk
    rw [Key.value?_eq henv', Key.value?_eq henv, hsame k hk]

/-- The least user id, as many permits as a limiter can have and an empty symbol; the variable of the total is no number,
and without its flag there are no settings. -/
theorem settings_resolved_over_invalid_variable :
    let total : Key × String := (.total, "+007")
    let texts : List (Key × String) := [(.url, "http://a//"), (.userId, "-9223372036854775808")]
    let rest : Environment := [("LOADTEST_SYMBOL", ""), ("LOADTEST_CONCURRENCY", "2305843009213693951")]
    let env : Environment := ("LOADTEST_TOTAL", "x") :: rest
    let s : Settings := {
      url := "http://a"
      concurrency := 2305843009213693951
      total := 7
      symbol := ""
      userId := -9223372036854775808 }
    load (arguments (total :: texts)) env = .ok s ∧ load (arguments (texts ++ [total])) env = .ok s ∧
      load (arguments (total :: texts)) rest = .ok s ∧ ¬∃ s, load (arguments texts) env = .ok s := by
  intro total texts rest env s
  have hflags : ((total :: texts).map Prod.fst).Nodup := by decide
  have hrest : (texts.map Prod.fst).Nodup := by decide
  have henv : env.Named := by decide
  obtain ⟨-, hload, hperm, hfree⟩ := settings_resolved hflags henv
  obtain ⟨hinvalid, -⟩ := settings_resolved hrest henv
  have hs : load (arguments (total :: texts)) env = .ok s := by
    rw [hload]
    refine ⟨trimmed_iff.mpr (by decide), ?_, by decide, by decide⟩
    intro k hk
    rw [← Key.read_eq_ok_iff]
    dsimp only [total, texts, rest, env, s]
    cases k with
    | url => exact absurd rfl hk
    | concurrency | total | testType | symbol | userId | logLevel => rfl
  refine ⟨hs, ?_, ?_, ?_⟩
  · rw [hperm _ (by decide)]
    exact hs
  · rw [← hs]
    apply hfree rest (by decide)
    intro k hk
    cases k <;> first | rfl | exact absurd (by decide) hk
  · rw [hinvalid]
    rintro ⟨hvalid, -⟩
    obtain ⟨n, hn⟩ := hvalid .total
    have htext : effective texts env .total = "x" := by decide
    rw [htext] at hn
    cases Key.read_eq_ok_iff.mpr hn

end OrderBench
