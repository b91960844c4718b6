import MeshFacts.Source
import MeshFacts.Proofs.Validation

/-! # The router setting
The variable of the environment that says whether the node is a router may also leave this to be found out. It then says
nothing at all, so that what the file says stands, while every other value of the variable overrides the file. -/
namespace MeshFacts

namespace Environment
variable {env : Environment} {v : Option String} {w : String}

def withRouter (env : Environment) (v : Option String) : Environment :=
  fun name => if name = "LOOM_WGLINK_ROUTER" then v else env name

def SaysAuto (env : Environment) : Prop := ∃ v, env "LOOM_WGLINK_ROUTER" = some v ∧ sameLetters "auto" v = true

lemma withRouter_self (env : Environment) : env.withRouter (env "LOOM_WGLINK_ROUTER") = env := by
  funext name
  unfold withRouter
  split_ifs with h
  · rw [h]
  · rfl

lemma var_withRouter {field : String} (h : field ≠ "ROUTER") : (env.withRouter v).var field = env.var field := by
  have hname : "LOOM_WGLINK_" ++ field ≠ "LOOM_WGLINK_ROUTER" := fun heq => by
    have hwhole : "LOOM_WGLINK_ROUTER" = "LOOM_WGLINK_" ++ "ROUTER" := by decide
    have hlist := congrArg String.toList (heq.trans hwhole)
    rw [String.toList_append, String.toList_append, List.append_cancel_left_eq, String.toList_inj] at hlist
    exact h hlist
  unfold var withRouter
  rw [if_neg hname]

lemma router_withRouter (env : Environment) (v : Option String) :
    (env.withRouter v).router = (v.filter fun w => w ≠ "" ∧ sameLetters "auto" w = false).map
      fun w => sameLetters w "true" || w == "1" := by
  have hvar : (env.withRouter v).var "ROUTER" = v.filter fun w => w ≠ "" := rfl
  unfold router flag
  rw [hvar]
  cases v with
  | none => rfl
  | some w => by_cases hw : w = "" <;> cases hauto : sameLetters "auto" w <;> simp [Option.filter_some, hw, hauto]

lemma router_of_saysAuto (h : env.SaysAuto) : env.router = none := by
  obtain ⟨w, hw, hauto⟩ := h
  rw [← env.withRouter_self, router_withRouter, hw]
  simp [hauto]

lemma layer_withRouter (env : Environment) (v : Option String) : (env.withRouter v).layer =
    (fun said => { said with router := (env.withRouter v).router }) <$> env.layer := by
  have hport : (env.withRouter v).port = env.port := by
    unfold port
    rw [var_withRouter (by decide)]
  unfold layer flag
  rw [hport]
  simp only [var_withRouter (show "IFACE" ≠ "ROUTER" by decide), var_withRouter (show "MANAGE_PEERS" ≠ "ROUTER" by decide),
    var_withRouter (show "CHATTY" ≠ "ROUTER" by decide), var_withRouter (show "DEBUG" ≠ "ROUTER" by decide),
    var_withRouter (show "LOG_JSON" ≠ "ROUTER" by decide)]
  cases env.port <;> rfl

end Environment

namespace Config
variable {o : Overrides} {env : Environment} {files : Files} {home : Option String} {c : Config}

def fileLayer (o : Overrides) (env : Environment) (files : Files) (home : Option String) : Except ConfigError Layer :=
  match filePath o env home with
  | none => .ok .empty
  | some (path, required) => (Source.file files path required).layer

def fileRouter (o : Overrides) (env : Environment) (files : Files) (home : Option String) : Option Bool :=
  (fileLayer o env files home).toOption.bind Layer.router

lemma fileLayer_withRouter (v : Option String) : fileLayer o (env.withRouter v) files home = fileLayer o env files home := by
  unfold fileLayer filePath
  rw [Environment.var_withRouter (by decide), Environment.var_withRouter (by decide)]

lemma load_eq (o : Overrides) (env : Environment) (files : Files) (home : Option String) : load o env files home = (do
    let builtIn ← Source.defaults.layer
    let file ← fileLayer o env files home
    let said ← env.layer
    ofLayer (((builtIn.merge file).merge said).merge o.layer)) := by
  unfold load fileLayer
  cases filePath o env home with
  | none =>
    have horder : Source.inOrder [.defaults, .environment env, .commandLine o] =
        [.defaults, .environment env, .commandLine o] := rfl
    simp only [Option.map_none, Option.toList_none, List.append_nil, List.singleton_append, ofSources, horder]
    cases hsaid : env.layer <;>
      simp [Source.mergeAll, Source.defaults, Source.environment, Source.commandLine, hsaid, bind, Except.bind,
        Layer.empty_merge, Layer.merge_empty]
  | some file =>
    obtain ⟨path, required⟩ := file
    have horder : Source.inOrder [.defaults, .file files path required, .environment env, .commandLine o] =
        [.defaults, .file files path required, .environment env, .commandLine o] := rfl
    simp only [Option.map_some, Option.toList_some, List.cons_append, List.nil_append, ofSources, horder]
    cases hfile : (Source.file files path required).layer <;> cases hsaid : env.layer <;>
      simp [Source.mergeAll, Source.defaults, Source.environment, Source.commandLine, hfile, hsaid, bind, Except.bind,
        Layer.empty_merge]

lemma ofLayer_with_router (l : Layer) (r : Option Bool) :
    ofLayer { l with router := r } = (fun c => { c with router := r }) <$> ofLayer l := by
  unfold ofLayer
  dsimp only
  split_ifs
  · rfl
  · rfl
  · cases addPeers 0 .empty (l.peers.getD []) <;> rfl

lemma exists_layers (h : load o env files home = .ok c) : ∃ builtIn file said, Source.defaults.layer = .ok builtIn ∧
    fileLayer o env files home = .ok file ∧ env.layer = .ok said ∧
      ofLayer (((builtIn.merge file).merge said).merge o.layer) = .ok c := by
  rw [load_eq] at h
  obtain ⟨builtIn, hbuiltIn, h⟩ := bind_eq_ok_iff.mp h
  obtain ⟨file, hfile, h⟩ := bind_eq_ok_iff.mp h
  obtain ⟨said, hsaid, h⟩ := bind_eq_ok_iff.mp h
  exact ⟨builtIn, file, said, hbuiltIn, hfile, hsaid, h⟩

/-- All that the variable changes is the router setting, where the command line leaves it open. -/
lemma load_withRouter (h : load o env files home = .ok c) (v : Option String) :
    load o (env.withRouter v) files home =
      .ok { c with router := o.router.or ((env.withRouter v).router.or (fileRouter o env files home)) } := by
  obtain ⟨builtIn, file, said, hbuiltIn, hfile, hsaid, hc⟩ := exists_layers h
  have hopen : builtIn.router = none := by rw [← Except.ok.inj hbuiltIn]
  have hrouter : fileRouter o env files home = file.router := by
    rw [fileRouter, hfile]
    rfl
  have hmerged : ∀ r, ((builtIn.merge file).merge { said with router := r }).merge o.layer =
      { ((builtIn.merge file).merge said).merge o.layer with router := o.router.or (r.or file.router) } := by
    intro r
    simp only [Layer.merge, Overrides.layer, Option.orElse_eq_orElse, Option.orElse_eq_or, hopen, Option.or_none]
  rw [load_eq, hbuiltIn, fileLayer_withRouter, hfile, Environment.layer_withRouter, hsaid, hrouter]
  change ofLayer (((builtIn.merge file).merge { said with router := (env.withRouter v).router }).merge o.layer) = _
  rw [hmerged, ofLayer_with_router, hc]
  rfl

/-- Where the variable leaves the router setting open and no flag decides it, what the file says stands, as if the
variable were not set. -/
theorem router_of_auto (hauto : env.SaysAuto) (hflag : o.router = none) (h : load o env files home = .ok c) :
    c.router = fileRouter o env files home ∧ load o (env.withRouter none) files home = .ok c ∧
      ∀ v, v ≠ "" → Environment.sameLetters "auto" v = false → load o (env.withRouter (some v)) files home =
        .ok { c with router := some (Environment.sameLetters v "true" || v == "1") } := by
  have hself := load_withRouter h (env "LOOM_WGLINK_ROUTER")
  rw [env.withRouter_self, h, Environment.router_of_saysAuto hauto, hflag, Option.none_or, Option.none_or] at hself
  have hrouter : c.router = fileRouter o env files home := congrArg (fun c => c.router) (Except.ok.inj hself)
  refine ⟨hrouter, ?_, fun v hv hnot => ?_⟩
  · rw [load_withRouter h, Environment.router_withRouter, hflag, ← hrouter]
    rfl
  · rw [load_withRouter h, Environment.router_withRouter, hflag]
    simp [Option.filter_some, hv, hnot]

/-- A file that says router, and an environment that leaves it open: the node is a router. -/
theorem auto_does_not_override :
    let env : Environment := fun name => if name = "LOOM_WGLINK_ROUTER" then some "Auto" else none
    let file (text : String) : Files := fun path => if path = "wg.toml" then .text text else .missing
    let o : Overrides := { config := some "wg.toml" }
    env.SaysAuto ∧ o.router = none ∧ ∃ c, load o env (file "router = true") none = .ok c ∧ c.router ≠ none := by
  intro env file o
  have hload : (load o env (file "router = true") none).toOption.map (fun c => c.router) = some (some true) := by
    decide +kernel
  obtain ⟨c, hc, hrouter⟩ := Option.map_eq_some_iff.mp hload
  exact ⟨⟨"Auto", rfl, by decide⟩, rfl, c, toOption_eq_some_iff.mp hc, by simp [hrouter]⟩

theorem router_of_auto_two_files :
    let env : Environment := fun name => if name = "LOOM_WGLINK_ROUTER" then some "Auto" else none
    let file (text : String) : Files := fun path => if path = "wg.toml" then .text text else .missing
    let o : Overrides := { config := some "wg.toml" }
    (∃ c, load o env (file "port = 5") none = .ok c ∧ c.router = none) ∧
      ∃ c, load o env (file "router = true") none = .ok c ∧ c.router = some true ∧
        load o (env.withRouter (some "off")) (file "router = true") none = .ok { c with router := some false } := by
  intro env file o
  have hauto : env.SaysAuto := ⟨"Auto", rfl, by decide⟩
  obtain ⟨c, hc⟩ : ∃ c, load o env (file "port = 5") none = .ok c := exists_of_isOk (by decide +kernel)
  obtain ⟨d, hd⟩ : ∃ c, load o env (file "router = true") none = .ok c := exists_of_isOk (by decide +kernel)
  obtain ⟨hopen, -, -⟩ := router_of_auto hauto rfl hc
  obtain ⟨hsaid, -, hother⟩ := router_of_auto hauto rfl hd
  refine ⟨⟨c, hc, hopen.trans (by decide +kernel)⟩, d, hd, hsaid.trans (by decide +kernel), ?_⟩
  exact hother "off" (by decide) (by decide)

end Config

end MeshFacts
