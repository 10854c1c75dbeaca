import SigV4.Source.Profile
/-!
# The default source

Without a profile of the caller's choice, sources are tried from the nearest to the farthest: the
environment, a web identity, the shared files, the container, the machine. With one, only
that profile counts, and what the platform gives to the container or the machine when
the profile configures nothing.
-/

namespace SigV4.Source

structure Default where
  profile : Option Profile.Settings
  chain : List Source

namespace Default

def metadataSettings (c : Config) : InstanceMetadata.Settings := ⟨none, c.metadataDisabled⟩

def profileSettings (c : Config) : Profile.Settings :=
  ⟨c.profile, c.configFile, c.credentialsFile, c.region, metadataSettings c⟩

/-- What the platform gives. -/
def platform (c : Config) : List Source := [container {}, instanceMetadata (metadataSettings c)]

def ofConfig (c : Config) : Default :=
  if c.profile.isSome then ⟨some (profileSettings c), platform c⟩
  else ⟨none, [environment, webIdentity { region := c.region }, Source.profile (profileSettings c)]
    ++ platform c⟩

end Default

def default (d : Default) : Source :=
  firstOf ((d.profile.toList.map Source.profile) ++ [firstOf d.chain])

end SigV4.Source
