import Appstore.Os.FileSystem
import Appstore.Controller.Reconcile

namespace Appstore.Chartsync

open Appstore.Api Appstore.Os Appstore.Controller

structure Syncer where
  localPath : String

namespace Syncer

variable (s : Syncer) (fs : FileSystem)

def getChartPath (chartName : String) : String := join [s.localPath, chartName]

def chartExists (chartName : String) : Bool :=
  let chartPath := s.getChartPath chartName
  let chartYaml := join [chartPath, "Chart.yaml"]
  (fs.stat chartYaml).isOk

/-- An entry `ListCharts` keeps: a directory, not hidden, holding a `Chart.yaml`. -/
def listed (entry : FileSystem.DirEntry) : Bool :=
  entry.isDir && entry.name.front ≠ '.' && (fs.stat (join [s.localPath, entry.name, "Chart.yaml"])).isOk

def listCharts : Except String (List String) :=
  match fs.readDir s.localPath with
  | .error e => .error ("failed to read charts directory: " ++ e)
  | .ok entries => .ok ((entries.filter (s.listed fs)).map (·.name))

def validator : ChartValidator := ⟨s.chartExists fs, s.listCharts fs⟩

theorem listCharts_ok {names : List String} (h : s.listCharts fs = .ok names) :
    ∃ es, fs.readDir s.localPath = .ok es ∧ names = (es.filter (s.listed fs)).map (·.name) := by
  unfold listCharts at h
  split at h
  · cases h
  · cases h
    exact ⟨_, ‹_›, rfl⟩

theorem chartExists_eq (hlp : s.localPath ≠ "") (x : String) :
    s.chartExists fs x = (fs.stat (join [s.localPath, x, "Chart.yaml"])).isOk := by
  rw [chartExists, getChartPath, join_join _ _ _ (.inl hlp)]

/-- Every chart `ListCharts` lists passes `ChartExists`. -/
theorem chartExists_of_listed {names : List String} (h : s.listCharts fs = .ok names) {x : String}
    (hx : x ∈ names) : s.chartExists fs x = true := by
  obtain ⟨es, hrd, rfl⟩ := s.listCharts_ok fs h
  obtain ⟨e, he, rfl⟩ := List.mem_map.1 hx
  have hl := (List.mem_filter.1 he).2
  simp only [listed, Bool.and_eq_true] at hl
  rw [s.chartExists_eq fs (fs.readDir_ok hrd).1]
  exact hl.2

/-- On what `ListCharts` looks at, the mirror's entries that are directories and
not hidden, `ChartExists` agrees with it. -/
theorem chartExists_iff_listed {names : List String} (h : s.listCharts fs = .ok names)
    {es : List FileSystem.DirEntry} (hrd : fs.readDir s.localPath = .ok es) {e : FileSystem.DirEntry}
    (he : e ∈ es) (hdir : e.isDir = true) (hvis : e.name.front ≠ '.') :
    s.chartExists fs e.name = true ↔ e.name ∈ names := by
  refine ⟨fun hx ↦ ?_, s.chartExists_of_listed fs h⟩
  obtain ⟨es', hrd', rfl⟩ := s.listCharts_ok fs h
  cases hrd.symm.trans hrd'
  rw [s.chartExists_eq fs (fs.readDir_ok hrd).1] at hx
  exact List.mem_map_of_mem _ (List.mem_filter.2 ⟨he, by simp [listed, hdir, hvis, hx]⟩)

end Syncer

section Validation

variable {N : Type} (r : Reconciler N) (s : Syncer) (fs : FileSystem)

theorem chartRejected_syncer (ad : AppDeployment) :
    chartRejected { r with chartValidator := some (s.validator fs) } ad = none ↔
      s.chartExists fs ad.spec.appName = true := by
  simp only [chartRejected, Syncer.validator]
  split_ifs with h <;> simp [h]

end Validation

def srvFs : FileSystem where
  nodes := [⟨[], "srv", .dir⟩, ⟨["srv"], "charts", .dir⟩, ⟨["srv"], "other", .dir⟩,
    ⟨["srv", "other"], "Chart.yaml", .file⟩,
    ⟨["srv", "charts"], "postgresql", .dir⟩, ⟨["srv", "charts", "postgresql"], "Chart.yaml", .file⟩,
    ⟨["srv", "charts"], ".x", .dir⟩, ⟨["srv", "charts", ".x"], "Chart.yaml", .file⟩,
    ⟨["srv", "charts"], "pg", .symlink "postgresql"⟩]
  cwd := []
  names_valid := by decide
  entries_nodup := by decide

def srvSyncer : Syncer := ⟨"/srv/charts"⟩

def otherChartRecord : AppDeployment :=
  ⟨⟨"other", "team-a", [], [], [], none, 1, 0, 0⟩, ⟨"../other", "", "team-a", "", "", none, [], false⟩, .empty⟩

/-- `ListCharts` lists `postgresql` alone, `ChartExists` accepts four names it
does not list, `reconcileHelm` admits `../other`, and its chart directory is
outside the mirror. -/
theorem unlisted_charts_exist (r : Reconciler Nat) :
    srvSyncer.listCharts srvFs = .ok ["postgresql"] ∧
      (∀ x ∈ [".x", "pg", "../other", "postgresql/"], srvSyncer.chartExists srvFs x = true) ∧
      chartRejected { r with chartValidator := some (srvSyncer.validator srvFs) } otherChartRecord = none ∧
      srvSyncer.getChartPath otherChartRecord.spec.appName = "/srv/other" := by
  refine ⟨rfl, by decide, (chartRejected_syncer r srvSyncer srvFs _).2 (by decide), by decide⟩

end Appstore.Chartsync
