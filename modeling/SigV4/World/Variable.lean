/-!
# Environment variables

The names under which a user or a platform leaves settings for AWS tools.
-/

namespace SigV4.Variable

def accessKeyId := "AWS_ACCESS_KEY_ID"
def secretAccessKey := "AWS_SECRET_ACCESS_KEY"
def sessionToken := "AWS_SESSION_TOKEN"
def profile := "AWS_PROFILE"
def configFile := "AWS_CONFIG_FILE"
def credentialsFile := "AWS_SHARED_CREDENTIALS_FILE"
def region := "AWS_REGION"
def defaultRegion := "AWS_DEFAULT_REGION"
def containerRelativeUri := "AWS_CONTAINER_CREDENTIALS_RELATIVE_URI"
def containerFullUri := "AWS_CONTAINER_CREDENTIALS_FULL_URI"
def containerToken := "AWS_CONTAINER_AUTHORIZATION_TOKEN"
def metadataDisabled := "AWS_EC2_METADATA_DISABLED"
def metadataEndpoint := "AWS_EC2_METADATA_SERVICE_ENDPOINT"
def roleArn := "AWS_ROLE_ARN"
def roleSessionName := "AWS_ROLE_SESSION_NAME"
def webIdentityTokenFile := "AWS_WEB_IDENTITY_TOKEN_FILE"
def regionalEndpoints := "AWS_STS_REGIONAL_ENDPOINTS"

end SigV4.Variable
