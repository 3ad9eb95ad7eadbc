import Stagecraft.Movie.Composition
import Stagecraft.Settings

/-!
# The demo movie

A new project starts with a small movie: a runner jogs north, turns toward a coach and waits for
the end, and one camera follows the runner all the time.
-/

namespace Stagecraft

variable {K : Type} [Scalar K]

namespace Demo

def runner : Actor K :=
  (Actor.named "Runner").withMesh "/Game/Characters/Runner"

def coach : Actor K :=
  (((Actor.named "Coach").withMesh "/Game/Characters/Coach").placedAt ⟨1500, 300, 0⟩).facing 270

def camera (s : Settings K) : Camera K :=
  (((Camera.named "MainCam").placedAt ⟨800, -600, 170⟩).withFocalLength
    s.camera.focalLength).withSensorHeight s.camera.sensorHeight

def runnerScript : ActorSequence K :=
  let jog : MoveCommand K :=
    (MoveCommand.toward .north).withMotion fun m =>
      (m.over (Distance.meters 10)).atSpeed (Speed.metersPerSecond 3)
  let jogging := (ActorSequence.blank "Runner").move (jog.playing (Clip.named "Jog"))
  let turning := (jogging.faceActor "Coach").playing (Clip.named "Walk")
  (turning.stay .tillEnd).playing (Clip.named "Idle")

def coachScript : ActorSequence K :=
  ((ActorSequence.blank "Coach").stay (.lasting (TimeSpan.seconds 6))).playing (Clip.named "Idle")

def cameraScript : CameraSequence K :=
  (CameraSequence.blank "MainCam").track "Runner"

def fileName : String := "demo.json"

def movie (s : Settings K) : Movie K where
  name := "Demo"
  fps := ⟨s.project.defaultFps⟩
  duration := none
  actors := [runner, coach]
  cameras := [camera s]
  lights := []
  splines := []
  script := [.actor runnerScript, .actor coachScript, .camera cameraScript]
  timeline := [.cameraCut (TimeSpan.seconds 0) "MainCam", .marker (TimeSpan.seconds 3) "arrival"]

end Demo

end Stagecraft
